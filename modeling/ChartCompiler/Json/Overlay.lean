import ChartCompiler.Json.Value

/-!
# Laying one value over another

An overlay changes the parts of a value that it mentions and leaves the rest alone.  Objects are
laid over each other member by member, as deeply as both sides are objects.  Everything else is
replaced, arrays included, and the overlay always wins.
-/

set_option autoImplicit false

namespace ChartCompiler.Json

mutual

/-- Lays a value over another one. -/
def overlay (base upper : Json) : Json :=
  match upper with
  | object uppers =>
    match base with
    | object members => object (overlayMembers members uppers)
    | _ => upper
  | _ => upper

/-- Lays members over the members of an object, one after the other. -/
def overlayMembers (members : List (String × Json)) :
    List (String × Json) → List (String × Json)
  | [] => members
  | (key, value) :: rest =>
    let laid :=
      match Members.find? key members with
      | some present => overlay present value
      | none => value
    overlayMembers (Members.insert key laid members) rest

end

end ChartCompiler.Json
