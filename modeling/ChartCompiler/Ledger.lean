/-!
# Ledgers

A ledger keeps one account for each key, in the order in which the keys first came up.  Booking an
entry updates the account of its key, which is opened first when there is none.
-/

set_option autoImplicit false

namespace ChartCompiler

variable {κ β : Type} [DecidableEq κ]

/-- Updates the account of a key; a new account starts from `fresh`. -/
def book (key : κ) (fresh : β) (update : β → β) : List (κ × β) → List (κ × β)
  | [] => [(key, update fresh)]
  | (name, account) :: rest =>
    if name = key then (name, update account) :: rest
    else (name, account) :: book key fresh update rest

/-- Adds a key at the end unless it is present. -/
def addNew (key : κ) (keys : List κ) : List κ :=
  if key ∈ keys then keys else keys ++ [key]

/-- The keys of a list in the order in which they first come up. -/
def distinct (keys : List κ) : List κ :=
  keys.foldl (fun seen key => addNew key seen) []

end ChartCompiler
