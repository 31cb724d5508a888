import MixedInteger.Proofs.Tokens

/-!
# Reading what is written

Between two values the reader only remembers which arrays and objects are open and what
they hold, so that the tokens of a value take it from where a value may begin to where the
value is complete.  A text in either form is therefore read as the value it was written
for.
-/

namespace MixedInteger.Json

/-- A property of all values, proved of arrays and objects from the values that they hold. -/
theorem induct {motive : Json → Prop} (null : motive .null)
    (boolean : ∀ value, motive (.boolean value)) (number : ∀ literal, motive (.number literal))
    (text : ∀ content, motive (.text content))
    (array : ∀ items, (∀ item ∈ items, motive item) → motive (.array items))
    (object : ∀ members, (∀ member ∈ members, motive member.2) → motive (.object members))
    (value : Json) : motive value := by
  -- The recursor has motives of its own for the lists of items and members, and for a member.
  apply @Json.rec motive (fun items => ∀ item ∈ items, motive item)
    (fun members => ∀ member ∈ members, motive member.2) fun member => motive member.2
  case null => exact null
  case boolean => exact boolean
  case number => exact number
  case text => exact text
  case array => exact array
  case object => exact object
  case nil => exact List.forall_mem_nil _
  case cons => exact fun _ _ first others => List.forall_mem_cons.mpr ⟨first, others⟩
  case nil => exact List.forall_mem_nil _
  case cons => exact fun _ _ first others => List.forall_mem_cons.mpr ⟨first, others⟩
  case mk => exact fun _ _ holds => holds

namespace Reader

variable {value : Json} {stack : List Frame}

/-- Some tokens complete a value wherever one may begin. -/
def Completes (tokens : List Token) (value : Json) : Prop :=
  ∀ stack, tokens.foldlM step? ⟨stack, .value⟩ = some ⟨stack, .separator value⟩

theorem exists_tokens (value : Json) :
    ∃ token later, value.tokens = token :: later ∧ token ≠ .closeArray := by
  cases value <;> exact ⟨_, _, rfl, nofun⟩

theorem exists_tokensOfItems (first : Json) (others : List Json) :
    ∃ token later, tokensOfItems (first :: others) = token :: later ∧ token ≠ .closeArray := by
  obtain ⟨token, later, begins, opens⟩ := exists_tokens first
  cases others with
  | nil => exact ⟨token, later, begins, opens⟩
  | cons second others =>
      refine ⟨token, later ++ .comma :: tokensOfItems (second :: others), ?_, opens⟩
      rw [← List.cons_append, ← begins]
      rfl

theorem foldlM_items {first : Json} {others : List Json}
    (each : ∀ item ∈ first :: others, Completes item.tokens item) (done : List Json) :
    (tokensOfItems (first :: others) ++ [Token.closeArray]).foldlM step?
        ⟨.items done :: stack, .value⟩ =
      some ⟨stack, .separator (.array (done.reverse ++ first :: others))⟩ := by
  induction others generalizing first done with
  | nil =>
      have completed := each first List.mem_cons_self (.items done :: stack)
      have closed : step? ⟨.items done :: stack, .separator first⟩ .closeArray =
          some ⟨stack, .separator (.array (first :: done).reverse)⟩ := rfl
      rw [tokensOfItems, List.foldlM_append, completed, Option.bind_eq_bind, Option.bind_some,
        List.foldlM_cons, closed, List.reverse_cons]
      rfl
  | cons second others ih =>
      obtain ⟨completes, later⟩ := List.forall_mem_cons.mp each
      have completed := completes (.items done :: stack)
      have remaining := ih later (first :: done)
      have comma : step? ⟨.items done :: stack, .separator first⟩ .comma =
          some ⟨.items (first :: done) :: stack, .value⟩ := rfl
      rw [List.reverse_cons, List.append_assoc, List.singleton_append] at remaining
      change ((first.tokens ++ .comma :: tokensOfItems (second :: others)) ++
        [Token.closeArray]).foldlM step? _ = _
      rw [← remaining, List.append_assoc, List.foldlM_append, completed, Option.bind_eq_bind,
        Option.bind_some, List.cons_append, List.foldlM_cons, comma]
      rfl

theorem foldlM_members {first : Option String × Json} {others : List (Option String × Json)}
    (each : ∀ member ∈ first :: others, Completes member.2.tokens member.2)
    (done : List (Option String × Json)) :
    (tokensOfMembers (first :: others) ++ [Token.closeObject]).foldlM step? ⟨stack, .key done⟩ =
      some ⟨stack, .separator (.object (done.reverse ++ first :: others))⟩ := by
  have opened (done : List (Option String × Json)) (key : Option String) :
      [Token.text key, .colon].foldlM step? ⟨stack, .key done⟩ =
        some ⟨.members done key :: stack, .value⟩ := rfl
  induction others generalizing first done with
  | nil =>
      have completed := each first List.mem_cons_self (.members done first.1 :: stack)
      have closed : step? ⟨.members done first.1 :: stack, .separator first.2⟩ .closeObject =
          some ⟨stack, .separator (.object (first :: done).reverse)⟩ := rfl
      change ([Token.text first.1, .colon] ++
        (first.2.tokens ++ [Token.closeObject])).foldlM step? _ = _
      rw [List.foldlM_append, opened, Option.bind_eq_bind, Option.bind_some, List.foldlM_append,
        completed, Option.bind_eq_bind, Option.bind_some, List.foldlM_cons, closed,
        List.reverse_cons]
      rfl
  | cons second others ih =>
      obtain ⟨completes, later⟩ := List.forall_mem_cons.mp each
      have completed := completes (.members done first.1 :: stack)
      have remaining := ih later (first :: done)
      have comma : step? ⟨.members done first.1 :: stack, .separator first.2⟩ .comma =
          some ⟨stack, .key (first :: done)⟩ := rfl
      rw [List.reverse_cons, List.append_assoc, List.singleton_append] at remaining
      rw [← remaining]
      change ([Token.text first.1, .colon] ++ ((first.2.tokens ++
        .comma :: tokensOfMembers (second :: others)) ++ [Token.closeObject])).foldlM step? _ = _
      rw [List.foldlM_append, opened, Option.bind_eq_bind, Option.bind_some, List.append_assoc,
        List.foldlM_append, completed, Option.bind_eq_bind, Option.bind_some, List.cons_append,
        List.foldlM_cons, comma]
      rfl

theorem step?_itemOrEnd {token : Token} (opens : token ≠ .closeArray) :
    step? ⟨stack, .itemOrEnd⟩ token = step? ⟨.items [] :: stack, .value⟩ token := by
  cases token <;> first | rfl | exact absurd rfl opens

/-- The tokens of a value complete it. -/
theorem completes_tokens (value : Json) : Completes value.tokens value := by
  induction value using induct with
  | null => exact fun stack => rfl
  | boolean value => exact fun stack => rfl
  | number literal => exact fun stack => rfl
  | text content => exact fun stack => rfl
  | array items ih =>
      intro stack
      cases items with
      | nil => rfl
      | cons first others =>
          have started : (array (first :: others)).tokens.foldlM step? ⟨stack, .value⟩ =
              (tokensOfItems (first :: others) ++ [Token.closeArray]).foldlM step?
                ⟨.items [] :: stack, .value⟩ := by
            obtain ⟨token, later, begins, opens⟩ := exists_tokensOfItems first others
            rw [tokens, begins, List.cons_append, List.foldlM_cons, List.foldlM_cons]
            exact congrArg (· >>= _) (step?_itemOrEnd opens)
          exact started.trans (foldlM_items ih [])
  | object members ih =>
      intro stack
      cases members with
      | nil => rfl
      | cons first others =>
          have started : (object (first :: others)).tokens.foldlM step? ⟨stack, .value⟩ =
              (tokensOfMembers (first :: others) ++ [Token.closeObject]).foldlM step?
                ⟨stack, .key []⟩ := by
            cases others <;> rfl
          exact started.trans (foldlM_members ih [])

end Reader

theorem ofTokens?_tokens (value : Json) : ofTokens? value.tokens = some value := by
  rw [ofTokens?, Reader.completes_tokens value []]
  rfl

theorem scan?_of_scans {text : List Char} {tokens : List Token}
    (scanned : Token.Scans text tokens []) : Token.scan? text = some tokens := by
  have read := scanned []
  rw [List.append_nil, List.append_nil] at read
  refine read.trans ?_
  exact congrArg some (List.reverse_reverse _)

theorem parse?_ofList {text : List Char} {value : Json}
    (scanned : Token.Scans text value.tokens []) : parse? (String.ofList text) = some value := by
  rw [parse?, String.toList_ofList, scan?_of_scans scanned]
  exact ofTokens?_tokens value

/-- The compact text of a value is read as the value. -/
theorem parse?_write {value : Json} (spelled : Spelled value) : parse? value.write = some value :=
  parse?_ofList (Token.scans_compact spelled [] Token.endsWord_nil)

/-- The indented text of a value is read as the value. -/
theorem parse?_writeIndented {value : Json} (spelled : Spelled value) :
    parse? value.writeIndented = some value :=
  parse?_ofList (Token.scans_indented spelled 0 [] Token.endsWord_nil)

end MixedInteger.Json
