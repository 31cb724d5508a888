/-!
# Tables keyed by names

A table assigns values to keys that have names.  Its entries are listed in
strictly increasing order of names, so each name occurs at most once.  An entry
keeps the key that was stored first: a later write under the same name changes
the value and not the key.
-/

namespace MixedInteger

/-- Things that are told apart by a name. -/
class Named (κ : Type) where
  name : κ → String

instance : Named String := ⟨id⟩

namespace Table

variable {κ α : Type} [Named κ]

/-- Entries in strictly increasing order of names. -/
def Ordered (entries : List (κ × α)) : Prop :=
  entries.Pairwise fun p q => Named.name p.1 < Named.name q.1

/-- The entries after the value of `k` becomes `f` of the value that was there. -/
def upsert (k : κ) (f : Option α → α) : List (κ × α) → List (κ × α)
  | [] => [(k, f none)]
  | (l, a) :: rest =>
    if Named.name k < Named.name l then (k, f none) :: (l, a) :: rest
    else if Named.name k = Named.name l then (l, f (some a)) :: rest
    else (l, a) :: upsert k f rest

/-- Every name after an `upsert` was there before or is the name of the key. -/
theorem name_of_mem_upsert {k : κ} {f : Option α → α} {entries : List (κ × α)} {p : κ × α}
    (present : p ∈ upsert k f entries) :
    Named.name p.1 = Named.name k ∨ ∃ q ∈ entries, Named.name q.1 = Named.name p.1 := by
  induction entries with
  | nil => simp_all [upsert]
  | cons q rest ih =>
    obtain ⟨l, a⟩ := q
    simp only [upsert] at present
    split at present
    · rcases List.mem_cons.mp present with rfl | present
      · exact .inl rfl
      · exact .inr ⟨p, present, rfl⟩
    · split at present
      · rcases List.mem_cons.mp present with rfl | present
        · exact .inr ⟨(l, a), List.mem_cons_self, rfl⟩
        · exact .inr ⟨p, List.mem_cons_of_mem _ present, rfl⟩
      · rcases List.mem_cons.mp present with rfl | present
        · exact .inr ⟨(l, a), List.mem_cons_self, rfl⟩
        · rcases ih present with same | ⟨q, member, same⟩
          · exact .inl same
          · exact .inr ⟨q, List.mem_cons_of_mem _ member, same⟩

/-- An `upsert` keeps the entries in order. -/
theorem ordered_upsert (k : κ) (f : Option α → α) {entries : List (κ × α)}
    (ordered : Ordered entries) : Ordered (upsert k f entries) := by
  induction entries with
  | nil => simp [upsert, Ordered]
  | cons q rest ih =>
    obtain ⟨l, a⟩ := q
    obtain ⟨above, below⟩ := List.pairwise_cons.mp ordered
    simp only [upsert]
    split
    case isTrue before =>
      refine List.pairwise_cons.mpr ⟨fun p present => ?_, ordered⟩
      rcases List.mem_cons.mp present with rfl | present
      · exact before
      · exact String.lt_trans before (above p present)
    case isFalse notBefore =>
      split
      case isTrue => exact List.pairwise_cons.mpr ⟨above, below⟩
      case isFalse different =>
        have after : Named.name l < Named.name k :=
          Std.lt_of_le_of_ne (Std.not_lt.mp notBefore) (Ne.symm different)
        refine List.pairwise_cons.mpr ⟨fun p present => ?_, ih below⟩
        rcases name_of_mem_upsert present with same | ⟨q, member, same⟩
        · exact same ▸ after
        · exact same ▸ above q member

def entryNamed? (name : String) (entries : List (κ × α)) : Option (κ × α) :=
  entries.find? fun p => Named.name p.1 == name

/-- A name before all names of the entries is not one of them. -/
theorem entryNamed?_eq_none_of_below {name : String} {entries : List (κ × α)}
    (below : ∀ p ∈ entries, name < Named.name p.1) : entryNamed? name entries = none := by
  refine List.find?_eq_none.mpr fun p present same => ?_
  have before := below p present
  rw [eq_of_beq same] at before
  exact String.lt_irrefl _ before

/-- An `upsert` writes the entry with the name of its key and leaves the others alone. -/
theorem entryNamed?_upsert (k : κ) (f : Option α → α) (name : String) {entries : List (κ × α)}
    (ordered : Ordered entries) :
    entryNamed? name (upsert k f entries) =
      if Named.name k = name then
        some (match entryNamed? name entries with
          | some (l, a) => (l, f (some a))
          | none => (k, f none))
      else entryNamed? name entries := by
  induction entries with
  | nil => simp [upsert, entryNamed?]
  | cons q rest ih =>
    obtain ⟨l, a⟩ := q
    obtain ⟨above, below⟩ := List.pairwise_cons.mp ordered
    simp only [upsert]
    split
    case isTrue before =>
      by_cases same : Named.name k = name
      · subst same
        have absent : entryNamed? (Named.name k) ((l, a) :: rest) = none :=
          entryNamed?_eq_none_of_below fun p present => by
            rcases List.mem_cons.mp present with rfl | present
            · exact before
            · exact String.lt_trans before (above p present)
        rw [absent]
        simp [entryNamed?]
      · simp [entryNamed?, same]
    case isFalse notBefore =>
      split
      case isTrue equal =>
        by_cases same : Named.name k = name
        · simp [entryNamed?, ← equal, same]
        · simp [entryNamed?, ← equal, same]
      case isFalse different =>
        by_cases first : Named.name l = name
        · have other : ¬ Named.name k = name := fun same => different (same.trans first.symm)
          simp [entryNamed?, first, other]
        · have step : ∀ tail : List (κ × α),
              entryNamed? name ((l, a) :: tail) = entryNamed? name tail := by
            intro tail
            simp [entryNamed?, first]
          rw [step, step, ih below]

end Table

/-- A finite map whose keys are told apart by their names. -/
structure Table (κ α : Type) [Named κ] where
  entries : List (κ × α)
  ordered : Table.Ordered entries

namespace Table

variable {κ α β : Type} [Named κ]

def empty : Table κ α := ⟨[], List.Pairwise.nil⟩

/-- The value of `k` becomes `f` of its present value, if it has one. -/
def update (table : Table κ α) (k : κ) (f : Option α → α) : Table κ α :=
  ⟨upsert k f table.entries, ordered_upsert k f table.ordered⟩

/-- The value of `k` becomes `a`, whatever it was. -/
def set (table : Table κ α) (k : κ) (a : α) : Table κ α :=
  table.update k fun _ => a

def map (f : α → β) (table : Table κ α) : Table κ β where
  entries := table.entries.map fun p => (p.1, f p.2)
  ordered := by
    rw [Ordered, List.pairwise_map]
    exact table.ordered

/-- The same values under other keys with the same names. -/
def rekey {κ' : Type} [Named κ'] (table : Table κ α) (f : κ → κ')
    (sameName : ∀ k, Named.name (f k) = Named.name k) : Table κ' α where
  entries := table.entries.map fun p => (f p.1, p.2)
  ordered := by
    rw [Ordered, List.pairwise_map]
    exact table.ordered.imp fun before => by simpa only [sameName] using before

/-- Tables are compared entry by entry. -/
instance [BEq κ] [BEq α] : BEq (Table κ α) := ⟨fun a b => a.entries == b.entries⟩

def pair? (table : Table κ α) (name : String) : Option (κ × α) :=
  entryNamed? name table.entries

def value? (table : Table κ α) (name : String) : Option α :=
  (table.pair? name).map Prod.snd

/-- An update keeps a key that is there, and leaves every other name alone. -/
theorem pair?_update (table : Table κ α) (k : κ) (f : Option α → α) (name : String) :
    (table.update k f).pair? name =
      if Named.name k = name then
        some (match table.pair? name with
          | some (l, a) => (l, f (some a))
          | none => (k, f none))
      else table.pair? name :=
  entryNamed?_upsert k f name table.ordered

/-- An update changes the value under one name as the function says. -/
theorem value?_update (table : Table κ α) (k : κ) (f : Option α → α) (name : String) :
    (table.update k f).value? name =
      if Named.name k = name then some (f (table.value? name)) else table.value? name := by
  rw [value?, value?, pair?_update]
  split
  · cases table.pair? name <;> rfl
  · rfl

def keys (table : Table κ α) : List κ :=
  table.entries.map Prod.fst

def size (table : Table κ α) : Nat :=
  table.entries.length

end Table

end MixedInteger
