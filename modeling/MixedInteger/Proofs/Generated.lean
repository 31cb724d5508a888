import MixedInteger.Proofs.Solid

/-!
# Names handed out one after another

A generator of names is asked for a name or for a variable again and again, for all kinds in
any order, and some of the variables bring their names with them.  Each kind is counted
apart, so that the name of a nameless request depends on the nameless requests for its kind
alone.  A generated name can be taken apart into its kind and its number: no two are equal.
-/

namespace MixedInteger.Naming

/-- What a generator is asked for: a name, a variable, or one that may bring its name. -/
inductive Request where
  | nextName (kind : Kind)
  | generate (kind : Kind)
  | continuous
  | integer
  | binary
  | make (kind : Kind) (given : Option String)
deriving DecidableEq, Repr

/-- What a generator hands out. -/
inductive Reply where
  | name (text : String)
  | made (v : Variable)

/-- The name that is handed out, alone or with its variable. -/
def Reply.text : Reply → String
  | .name text => text
  | .made v => v.name

namespace Request

def kind : Request → Kind
  | .nextName kind => kind
  | .generate kind => kind
  | .continuous => .continuous
  | .integer => .integer
  | .binary => .binary
  | .make kind _ => kind

/-- The name that the request brings with it, if it does. -/
def given? : Request → Option String
  | .make _ given => given
  | _ => none

/-- What the generator replies, and what it has counted then. -/
def serve (naming : Naming) : Request → Reply × Naming
  | .nextName kind => (naming.nextName kind).map .name id
  | .generate kind => (naming.generate kind).map .made id
  | .continuous => (naming.generate .continuous).map .made id
  | .integer => (naming.generate .integer).map .made id
  | .binary => (naming.generate .binary).map .made id
  | .make kind given => (naming.make kind given).map .made id

/-- How many of some requests are for a kind and bring no name. -/
def nameless (requests : List Request) (kind : Kind) : Nat :=
  requests.countP fun request => request.given?.isNone && request.kind == kind

/--
The name that a request is due after some others: the given one without its blanks, or `u`,
the letter of its kind and, in decimal digits, its place among the nameless requests for it.
-/
def dueName (before : List Request) (request : Request) : String :=
  match request.given? with
  | some text => Variable.nameOf text
  | none =>
    String.ofList ['u', request.kind.letter] ++ toString (nameless before request.kind + 1)

/-- The reply that a request is due after some others. -/
inductive Due (before : List Request) : Request → Reply → Prop
  | name (kind : Kind) : Due before (.nextName kind) (.name (dueName before (.nextName kind)))
  | made {request : Request} {v : Variable} (wanted : ∀ kind, request ≠ .nextName kind)
      (named : v.name = dueName before request) (kinded : v.kind = request.kind) :
      Due before request (.made v)

/-- The names of the replies to nameless requests. -/
def generated (requests : List Request) (replies : List Reply) : List String :=
  ((requests.zip replies).filter fun p => p.1.given?.isNone).map fun p => p.2.text

end Request

open Request (serve nameless dueName Due generated)

/-- The replies to some requests in a row, and what is counted at the end. -/
def run (naming : Naming) : List Request → List Reply × Naming
  | [] => ([], naming)
  | request :: rest =>
    let served := request.serve naming
    let ended := served.2.run rest
    (served.1 :: ended.1, ended.2)

variable {naming : Naming} {request : Request}

/-! ## Generated names -/

theorem generatedName_eq (kind : Kind) (count : Nat) :
    generatedName kind count = String.ofList ['u', kind.letter] ++ toString count := by
  rw [Nat.toString_eq_ofList_toDigits, ← String.ofList_append]
  rfl

theorem letter_injective {first second : Kind} (same : first.letter = second.letter) :
    first = second := by
  revert same
  cases first <;> cases second <;> decide

/-- A generated name tells its kind and its number. -/
theorem generatedName_inj {first second : Kind} {count count' : Nat} :
    generatedName first count = generatedName second count' ↔ first = second ∧ count = count' := by
  constructor
  · intro same
    obtain ⟨letters, digits⟩ := List.cons.inj (List.cons.inj (String.ofList_injective same)).2
    exact ⟨letter_injective letters, Text.toDigits_injective digits⟩
  · rintro ⟨rfl, rfl⟩
    rfl

/-! ## One request -/

/-- A request brings a name and leaves the counts alone, or it is given the next name. -/
theorem serve_cases (naming : Naming) (request : Request) :
    (∃ kind text, request = .make kind (some text) ∧
      request.serve naming = (.made (.named kind text), naming)) ∨
    (request.given? = none ∧ (request.serve naming).2 = naming.advance request.kind ∧
      (request.serve naming).1.text =
        generatedName request.kind (naming.count request.kind + 1)) := by
  have next (kind : Kind) : (naming.advance kind).count kind = naming.count kind + 1 := by
    rw [count_advance, if_pos rfl]
  have alone (kind : Kind) : (naming.nextName kind).1 =
      generatedName kind (naming.count kind + 1) :=
    congrArg (generatedName kind) (next kind)
  have within (kind : Kind) : (naming.generate kind).1.name =
      generatedName kind (naming.count kind + 1) :=
    (nameOf_generatedName kind _).trans (alone kind)
  cases request with
  | nextName kind => exact .inr ⟨rfl, rfl, alone kind⟩
  | generate kind => exact .inr ⟨rfl, rfl, within kind⟩
  | continuous => exact .inr ⟨rfl, rfl, within .continuous⟩
  | integer => exact .inr ⟨rfl, rfl, within .integer⟩
  | binary => exact .inr ⟨rfl, rfl, within .binary⟩
  | make kind given =>
      cases given with
      | some text => exact .inl ⟨kind, text, rfl, rfl⟩
      | none => exact .inr ⟨rfl, rfl, within kind⟩

/-- One request is counted for its kind if it brings no name. -/
theorem count_serve (naming : Naming) (request : Request) (kind : Kind) :
    (request.serve naming).2.count kind = naming.count kind + nameless [request] kind := by
  rcases serve_cases naming request with ⟨other, text, rfl, served⟩ | ⟨bare, advanced, -⟩
  · rw [served]
    rfl
  · rw [advanced, count_advance]
    simp [nameless, bare]

/-- Whatever it is named, a variable that is made has the kind that it is asked for. -/
theorem kind_serve {v : Variable} (served : (request.serve naming).1 = .made v) :
    v.kind = request.kind := by
  cases request with
  | nextName kind => cases served
  | make kind given =>
      rw [← Reply.made.inj served]
      cases given <;> rfl
  | _ =>
      rw [← Reply.made.inj served]
      rfl

/-- Where the counts are those of the requests before, the reply is the one that is due. -/
theorem due_serve {before : List Request}
    (counts : ∀ kind, naming.count kind = nameless before kind) (request : Request) :
    Due before request (request.serve naming).1 := by
  have text : (request.serve naming).1.text = dueName before request := by
    rcases serve_cases naming request with ⟨kind, given, rfl, served⟩ | ⟨bare, -, named⟩
    · rw [served]
      rfl
    · rw [named, dueName, bare, counts, generatedName_eq]
  cases served : (request.serve naming).1 with
  | name written =>
      rw [served] at text
      cases request with
      | nextName kind =>
          obtain rfl : written = _ := text
          exact .name kind
      | _ => cases served
  | made v =>
      rw [served] at text
      refine .made ?_ text (kind_serve served)
      rintro kind rfl
      cases served

/-! ## Requests in a row -/

theorem run_append (naming : Naming) (first second : List Request) :
    naming.run (first ++ second) =
      ((naming.run first).1 ++ ((naming.run first).2.run second).1,
        ((naming.run first).2.run second).2) := by
  induction first generalizing naming with
  | nil => rfl
  | cons request rest ih =>
      rw [List.cons_append, run, run, ih]
      rfl

theorem length_run (naming : Naming) (requests : List Request) :
    (naming.run requests).1.length = requests.length := by
  induction requests generalizing naming with
  | nil => rfl
  | cons request rest ih => exact congrArg Nat.succ (ih _)

theorem nameless_append (first second : List Request) (kind : Kind) :
    nameless (first ++ second) kind = nameless first kind + nameless second kind :=
  List.countP_append

/-- However the requests are mixed, each kind is counted apart. -/
theorem count_run (naming : Naming) (requests : List Request) (kind : Kind) :
    (naming.run requests).2.count kind = naming.count kind + nameless requests kind := by
  induction requests generalizing naming with
  | nil => rfl
  | cons request rest ih =>
      rw [← List.singleton_append, nameless_append, ← Nat.add_assoc, ← count_serve]
      exact ih _

theorem count_run_fresh (requests : List Request) (kind : Kind) :
    (fresh.run requests).2.count kind = nameless requests kind := by
  rw [count_run, count_fresh, Nat.zero_add]

theorem generated_run_cons (naming : Naming) (request : Request) (rest : List Request) :
    generated (request :: rest) (naming.run (request :: rest)).1 =
      (if request.given? = none then [(request.serve naming).1.text] else []) ++
        generated rest ((request.serve naming).2.run rest).1 := by
  unfold generated
  rw [run, List.zip_cons_cons, List.filter_cons]
  cases request.given? <;> rfl

/-- A name that a run generates has a number above the counts with which the run starts. -/
theorem exists_of_mem_generated {requests : List Request} {name : String}
    (present : name ∈ generated requests (naming.run requests).1) :
    ∃ kind number, naming.count kind < number ∧ name = generatedName kind number := by
  induction requests generalizing naming with
  | nil => cases present
  | cons request rest ih =>
      rw [generated_run_cons] at present
      rcases List.mem_append.mp present with here | later
      · rcases serve_cases naming request with ⟨kind, text, rfl, -⟩ | ⟨bare, -, named⟩
        · cases here
        · rw [if_pos bare, List.mem_singleton] at here
          exact ⟨request.kind, _, Nat.lt_succ_self _, here.trans named⟩
      · obtain ⟨kind, number, above, rfl⟩ := ih later
        rw [count_serve] at above
        exact ⟨kind, number, Nat.lt_of_le_of_lt (Nat.le_add_right _ _) above, rfl⟩

/-- No two names that a run generates are equal, whatever was counted before. -/
theorem nodup_generated (naming : Naming) (requests : List Request) :
    (generated requests (naming.run requests).1).Nodup := by
  induction requests generalizing naming with
  | nil => exact .nil
  | cons request rest ih =>
      rw [generated_run_cons]
      rcases serve_cases naming request with ⟨kind, text, rfl, -⟩ | ⟨bare, advanced, named⟩
      · exact ih _
      · rw [if_pos bare, List.singleton_append, named]
        refine List.nodup_cons.mpr ⟨fun later => ?_, ih _⟩
        -- The counts behind the request are at its number, and later numbers are above them.
        obtain ⟨kind, number, above, same⟩ := exists_of_mem_generated later
        obtain ⟨rfl, rfl⟩ := generatedName_inj.mp same
        rw [advanced, count_advance, if_pos rfl] at above
        exact Nat.lt_irrefl _ above

/--
A fresh generator answers any requests in a row with the replies that they are due: the
nameless request that is the k-th for its kind gets the name with number k, whatever was asked
for other kinds or came with its name.  The generated names are distinct, across the kinds
too.  They hold no blank, so that a variable keeps such a name as it is.  The count of a kind
is the number of its nameless requests, and fits into 64 bits all along if that number does.
-/
theorem generated_names_distinct (requests : List Request) :
    (fresh.run requests).1.length = requests.length ∧
    (∀ before request after, requests = before ++ request :: after →
      ∃ reply, (fresh.run requests).1[before.length]? = some reply ∧ Due before request reply) ∧
    (generated requests (fresh.run requests).1).Nodup ∧
    (∀ name ∈ generated requests (fresh.run requests).1,
      Text.Solid name.toList ∧ ∀ kind, (Variable.named kind name).name = name) ∧
    (∀ kind, (fresh.run requests).2.count kind = nameless requests kind) ∧
    ∀ kind, nameless requests kind < UInt64.size →
      ∀ before after, requests = before ++ after →
        (fresh.run before).2.count kind < UInt64.size := by
  refine ⟨length_run fresh requests, ?_, nodup_generated fresh requests, ?_,
    count_run_fresh requests, ?_⟩
  · rintro before request after rfl
    refine ⟨_, ?_, due_serve (count_run_fresh before) request⟩
    have there : before.length = (fresh.run before).1.length := (length_run fresh before).symm
    rw [run_append, there, List.getElem?_append_right (Nat.le_refl _), Nat.sub_self]
    rfl
  · intro name present
    obtain ⟨kind, number, -, rfl⟩ := exists_of_mem_generated present
    exact ⟨solid_generatedName kind number, fun _ => nameOf_generatedName kind number⟩
  · rintro kind few before after rfl
    rw [nameless_append] at few
    rw [count_run_fresh]
    exact Nat.lt_of_le_of_lt (Nat.le_add_right _ _) few

/-- Requests for all kinds, some of which bring a name. -/
def Request.mixed : List Request :=
  [.continuous, .make .binary (some "u b1"), .nextName .binary, .integer, .generate .continuous,
    .make .binary none]

/-- A given name may equal a generated one, and takes no number away. -/
theorem mixed_generated :
    (fresh.run Request.mixed).1.map Reply.text = ["ur1", "ub1", "ub1", "ui1", "ur2", "ub2"] ∧
      (generated Request.mixed (fresh.run Request.mixed).1).Nodup ∧
      (fresh.run (Request.mixed.take 3)).2.count .binary < UInt64.size := by
  obtain ⟨-, -, distinct, -, -, few⟩ := generated_names_distinct Request.mixed
  exact ⟨by decide, distinct, few .binary (by decide) _ (Request.mixed.drop 3) rfl⟩

end MixedInteger.Naming
