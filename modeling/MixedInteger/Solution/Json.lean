import MixedInteger.Json.Form
import MixedInteger.Solution

/-!
# JSON form of summaries

The values of a summary are an object with one number for each name, in the
order of the names.  When it is read, the last number of a repeated name counts.
-/

namespace MixedInteger

namespace Summary

/-- The values of some members, added one after another. -/
def addMembers? (table : Table String Float) :
    List (Option String × Json) → Option (Table String Float)
  | [] => some table
  | (some name, value) :: rest => do
    let x ← value.float?
    addMembers? (table.set name x) rest
  | (none, _) :: _ => none

def values? (room : Nat) : Json → Option (Table String Float)
  | .object members => if room = 0 then none else addMembers? .empty members
  | _ => none

end Summary

instance : Json.Form Summary where
  write summary := .ofFields
    [("objective_value", .ofFloat summary.objective),
      ("values", .ofFields (summary.values.entries.map fun p => (p.1, .ofFloat p.2)))]
  read? room value := do
    let [objective, values] ← Json.fields? ["objective_value", "values"] room value | none
    let objective ← Json.required Json.float? objective
    let values ← Json.required (Summary.values? (room - 1)) values
    return ⟨objective, values⟩

end MixedInteger
