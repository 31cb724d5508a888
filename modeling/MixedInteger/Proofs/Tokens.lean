import MixedInteger.Json.Reader
import MixedInteger.Json.Writer

/-!
# Tokens of a written value

The text of a value is scanned into the tokens of the value, in the compact form and in the
indented one.  A quoted text ends at its own quotation mark and a mark is a token by
itself; a word ends where something stands behind it that belongs to no word.
-/

namespace MixedInteger.Json

/-! ## Quoted texts -/

namespace Quoted

/-- An escape is a letter, a code unit or the character itself. -/
theorem escape_cases (c : Char) :
    (∃ letter, letter? letter = some c ∧ escape c = ['\\', letter]) ∨
      (c.toNat < 0x20 ∧
        escape c = ['\\', 'u', '0', '0', hexDigit (c.toNat / 16), hexDigit (c.toNat % 16)]) ∨
      (escape c = [c] ∧ c ≠ '"' ∧ c ≠ '\\' ∧ 0x20 ≤ c.toNat) := by
  unfold escape
  split
  case isTrue same => exact .inl ⟨'"', by rw [same]; rfl, rfl⟩
  split
  case isTrue same => exact .inl ⟨'\\', by rw [same]; rfl, rfl⟩
  split
  case isTrue same => exact .inl ⟨'b', by rw [same]; rfl, rfl⟩
  split
  case isTrue same => exact .inl ⟨'f', by rw [same]; rfl, rfl⟩
  split
  case isTrue same => exact .inl ⟨'n', by rw [same]; rfl, rfl⟩
  split
  case isTrue same => exact .inl ⟨'r', by rw [same]; rfl, rfl⟩
  split
  case isTrue same => exact .inl ⟨'t', by rw [same]; rfl, rfl⟩
  split
  case isTrue control => exact .inr (.inl ⟨control, rfl⟩)
  case isFalse quote backslash _ _ _ _ _ printed =>
    exact .inr (.inr ⟨rfl, quote, backslash, Nat.not_lt.mp printed⟩)

theorem hexDigit_spec : ∀ n < 16, hexDigit? (hexDigit n) = some n ∧ hexDigit n ≠ '"' ∧
    hexDigit n ≠ '\\' ∧ 0x20 ≤ (hexDigit n).toNat := by
  decide

theorem units?_plain {c : Char} (plain : c ≠ '\\') (rest : List Char) :
    units? (c :: rest) = (units? rest).map (c.toNat :: ·) := by
  rw [units?]
  · cases units? rest <;> rfl
  all_goals simp [plain]

theorem units?_letter {c letter : Char} (found : letter? c = some letter) (rest : List Char) :
    units? ('\\' :: c :: rest) = (units? rest).map (letter.toNat :: ·) := by
  rw [units?, found]
  · cases units? rest <;> rfl
  · rintro _ _ _ _ _ rfl
    cases found

theorem units?_unit {a b c d : Char} {unit : Nat} (found : unit? a b c d = some unit)
    (rest : List Char) :
    units? ('\\' :: 'u' :: a :: b :: c :: d :: rest) = (units? rest).map (unit :: ·) := by
  rw [units?, found]
  cases units? rest <;> rfl

/-- An escape is read as the character that it was written for. -/
theorem units?_escape (c : Char) (rest : List Char) :
    units? (escape c ++ rest) = (units? rest).map (c.toNat :: ·) := by
  rcases escape_cases c with ⟨letter, found, written⟩ | ⟨control, written⟩ | ⟨written, -, plain, -⟩
  · rw [written]
    exact units?_letter found rest
  · rw [written]
    refine units?_unit ?_ rest
    have zero : hexDigit? '0' = some 0 := rfl
    have high := (hexDigit_spec (c.toNat / 16) (by omega)).1
    have low := (hexDigit_spec (c.toNat % 16) (by omega)).1
    have value : ((0 * 16 + 0) * 16 + c.toNat / 16) * 16 + c.toNat % 16 = c.toNat := by omega
    simp only [unit?, zero, high, low]
    exact congrArg some value
  · rw [written]
    exact units?_plain plain rest

theorem units?_escaped (text : List Char) :
    units? (text.flatMap escape) = some (text.map Char.toNat) := by
  induction text with
  | nil => rfl
  | cons c rest ih => rw [List.flatMap_cons, units?_escape, ih, List.map_cons, Option.map_some]

/-- No character is half of a surrogate pair. -/
theorem not_surrogate (c : Char) : isLeading c.toNat = false ∧ isTrailing c.toNat = false := by
  have valid : c.toNat.isValidChar := c.valid
  simp only [Nat.isValidChar] at valid
  simp only [isLeading, isTrailing, Bool.and_eq_false_iff, decide_eq_false_iff_not]
  omega

theorem characters?_toNat (text : List Char) : characters? (text.map Char.toNat) = some text := by
  induction text with
  | nil => rfl
  | cons c rest ih =>
      obtain ⟨leading, trailing⟩ := not_surrogate c
      rw [List.map_cons]
      unfold characters?
      simp [leading, trailing, ih]

theorem content?_escaped (text : List Char) :
    content? (text.flatMap escape) = some (some (String.ofList text)) := by
  rw [content?, units?_escaped, Option.map_some, characters?_toNat, Option.map_some]

end Quoted

namespace Token

/-- The tokens of a text whose first characters have been read. -/
def scanFrom (scan : Scan) (text : List Char) : Option (List Token) :=
  (text.foldlM step? scan).bind finish?

theorem scanFrom_append {scan next : Scan} {text : List Char}
    (read : text.foldlM step? scan = some next) (rest : List Char) :
    scanFrom scan (text ++ rest) = scanFrom next rest := by
  rw [scanFrom, List.foldlM_append, read]
  rfl

/-- In front of the rest, a text is scanned as some tokens. -/
def Scans (text : List Char) (tokens : List Token) (rest : List Char) : Prop :=
  ∀ before,
    scanFrom ⟨before, .idle⟩ (text ++ rest) = scanFrom ⟨tokens.reverse ++ before, .idle⟩ rest

theorem Scans.append {first second rest : List Char} {tokens more : List Token}
    (one : Scans first tokens (second ++ rest)) (other : Scans second more rest) :
    Scans (first ++ second) (tokens ++ more) rest := by
  intro before
  rw [List.append_assoc, one, other, List.reverse_append, List.append_assoc]

theorem scans_of_foldlM {text : List Char} {tokens : List Token}
    (read : ∀ before, text.foldlM step? ⟨before, .idle⟩ = some ⟨tokens.reverse ++ before, .idle⟩)
    (rest : List Char) : Scans text tokens rest :=
  fun before => scanFrom_append (read before) rest

/-! ## Quoted texts as tokens -/

theorem step?_quoted {c : Char} (quote : c ≠ '"') (backslash : c ≠ '\\') (printed : 0x20 ≤ c.toNat)
    (before : List Token) (read : List Char) :
    step? ⟨before, .quoted read⟩ c = some ⟨before, .quoted (c :: read)⟩ := by
  simp [step?, quote, backslash, Nat.not_lt.mpr printed]

theorem foldlM_escape (c : Char) (before : List Token) (read : List Char) :
    (Quoted.escape c).foldlM step? ⟨before, .quoted read⟩ =
      some ⟨before, .quoted ((Quoted.escape c).reverse ++ read)⟩ := by
  rcases Quoted.escape_cases c with
    ⟨letter, -, written⟩ | ⟨control, written⟩ | ⟨written, quote, backslash, printed⟩
  · rw [written]
    rfl
  · obtain ⟨-, quote, backslash, printed⟩ := Quoted.hexDigit_spec (c.toNat / 16) (by omega)
    obtain ⟨-, quote', backslash', printed'⟩ := Quoted.hexDigit_spec (c.toNat % 16) (by omega)
    have zero (read : List Char) :
        step? ⟨before, .quoted read⟩ '0' = some ⟨before, .quoted ('0' :: read)⟩ := rfl
    have start : ['\\', 'u'].foldlM step? ⟨before, .quoted read⟩ =
        some ⟨before, .quoted ('u' :: '\\' :: read)⟩ := rfl
    rw [written]
    change (['\\', 'u'] ++ ['0', '0', _, _]).foldlM step? _ = _
    rw [List.foldlM_append, start]
    simp [zero, step?_quoted quote backslash printed, step?_quoted quote' backslash' printed']
  · rw [written, List.foldlM_cons, step?_quoted quote backslash printed]
    rfl

theorem foldlM_escaped (text : List Char) (before : List Token) (read : List Char) :
    (text.flatMap Quoted.escape).foldlM step? ⟨before, .quoted read⟩ =
      some ⟨before, .quoted ((text.flatMap Quoted.escape).reverse ++ read)⟩ := by
  induction text generalizing read with
  | nil => rfl
  | cons c rest ih =>
      rw [List.flatMap_cons, List.foldlM_append, foldlM_escape, Option.bind_eq_bind,
        Option.bind_some, ih, List.reverse_append, List.append_assoc]

/-- A quoted text is one token, whatever stands behind it. -/
theorem scans_quoted (content : Option String) (rest : List Char) :
    Scans (Quoted.write content) [.text content] rest := by
  refine scans_of_foldlM (fun before => ?_) rest
  cases content with
  | none => rfl
  | some content =>
      have opened : step? ⟨before, .idle⟩ '"' = some ⟨before, .quoted []⟩ := rfl
      have closed (read : List Char) : step? ⟨before, .quoted read⟩ '"' =
          (Quoted.content? read.reverse).map fun content => ⟨.text content :: before, .idle⟩ := rfl
      rw [Quoted.write, List.foldlM_cons, opened, Option.bind_eq_bind, Option.bind_some,
        List.foldlM_append, foldlM_escaped, Option.bind_eq_bind, Option.bind_some,
        List.foldlM_cons, closed, List.append_nil, List.reverse_reverse, Quoted.content?_escaped,
        String.ofList_toList]
      rfl

/-! ## Words -/

/-- What stands behind a word does not belong to it. -/
def EndsWord (rest : List Char) : Prop :=
  ∀ c ∈ rest.head?, isWordChar c = false

theorem step?_idle {c : Char} (inside : isWordChar c = true) (before : List Token) :
    step? ⟨before, .idle⟩ c = some ⟨before, .word [c]⟩ := by
  have space : isSpace c = false := by
    refine Bool.eq_false_iff.mpr fun space => ?_
    simp only [isSpace, Bool.or_eq_true, beq_iff_eq] at space
    rcases space with ((rfl | rfl) | rfl) | rfl <;> cases inside
  have quote : c ≠ '"' := by
    rintro rfl
    cases inside
  simp [step?, start?, space, quote, inside]

theorem step?_word {c : Char} (inside : isWordChar c = true) (before : List Token)
    (read : List Char) :
    step? ⟨before, .word read⟩ c = some ⟨before, .word (c :: read)⟩ := by
  simp [step?, inside]

theorem foldlM_word {word : List Char} (inside : ∀ c ∈ word, isWordChar c = true)
    (before : List Token) (read : List Char) :
    word.foldlM step? ⟨before, .word read⟩ = some ⟨before, .word (word.reverse ++ read)⟩ := by
  induction word generalizing read with
  | nil => rfl
  | cons c rest ih =>
      obtain ⟨first, others⟩ := List.forall_mem_cons.mp inside
      rw [List.foldlM_cons, step?_word first, Option.bind_eq_bind, Option.bind_some, ih others,
        List.reverse_cons, List.append_assoc]
      rfl

/-- A word becomes its token where it ends. -/
theorem scanFrom_word {read rest : List Char} {token : Token}
    (known : ofWord? read.reverse = some token) (ends : EndsWord rest) (before : List Token) :
    scanFrom ⟨before, .word read⟩ rest = scanFrom ⟨token :: before, .idle⟩ rest := by
  cases rest with
  | nil => simp [scanFrom, finish?, known]
  | cons c later =>
      have outside : isWordChar c = false := ends c rfl
      have step : step? ⟨before, .word read⟩ c = step? ⟨token :: before, .idle⟩ c := by
        simp [step?, outside, known]
      rw [scanFrom, scanFrom, List.foldlM_cons, List.foldlM_cons, step]

/-- A word is its token in front of what does not belong to it. -/
theorem scans_word {word rest : List Char} {token : Token}
    (inside : ∀ c ∈ word, isWordChar c = true) (known : ofWord? word = some token)
    (ends : EndsWord rest) : Scans word [token] rest := by
  intro before
  cases word with
  | nil => cases known
  | cons c later =>
      obtain ⟨first, others⟩ := List.forall_mem_cons.mp inside
      have read : (c :: later).foldlM step? ⟨before, .idle⟩ =
          some ⟨before, .word (c :: later).reverse⟩ := by
        rw [List.foldlM_cons, step?_idle first, Option.bind_eq_bind, Option.bind_some,
          foldlM_word others, List.reverse_cons]
      rw [scanFrom_append read]
      exact scanFrom_word (by rwa [List.reverse_reverse]) ends before

/-! ## Numbers -/

theorem isWordChar_of_isDigit {c : Char} (digit : c.isDigit = true) : isWordChar c = true := by
  simp [isWordChar, Char.isAlphanum, digit]

theorem isWordChar_takeWhile (text : List Char) :
    ∀ c ∈ text.takeWhile Char.isDigit, isWordChar c = true :=
  fun _ present => isWordChar_of_isDigit (List.all_eq_true.mp List.all_takeWhile _ present)

theorem isWordChar_of_exponent? {text : List Char} {e : Int}
    (read : Decimal.Parts.exponent? text = some e) : ∀ c ∈ text, isWordChar c = true := by
  unfold Decimal.Parts.exponent? at read
  split at read
  case h_1 negative digits signed =>
    split at read
    case isTrue => cases read
    case isFalse bare =>
      have inside : ∀ c ∈ digits, isWordChar c = true := by
        simp only [Bool.or_eq_true, not_or, Bool.not_eq_true', Bool.not_eq_false] at bare
        exact fun c present => isWordChar_of_isDigit (List.all_eq_true.mp bare.2 c present)
      split at signed
      · cases signed
        exact List.forall_mem_cons.mpr ⟨rfl, inside⟩
      · cases signed
        exact List.forall_mem_cons.mpr ⟨rfl, inside⟩
      · cases signed
        exact inside

theorem isWordChar_of_tail? {text : List Char} {e : Int}
    (read : Decimal.Parts.tail? text = some e) : ∀ c ∈ text, isWordChar c = true := by
  cases text with
  | nil => nofun
  | cons c rest =>
      rw [Decimal.Parts.tail?] at read
      split at read
      case isTrue mark =>
        refine List.forall_mem_cons.mpr ⟨?_, isWordChar_of_exponent? read⟩
        simp only [Bool.or_eq_true, decide_eq_true_eq] at mark
        rcases mark with rfl | rfl <;> rfl
      case isFalse => cases read

theorem isWordChar_of_ofText? {text : List Char} {parts : Decimal.Parts}
    (read : Decimal.Parts.ofText? text = some parts) : ∀ c ∈ text, isWordChar c = true := by
  have split := List.takeWhile_append_dropWhile (p := Char.isDigit) (l := text)
  rw [← split]
  refine List.forall_mem_append.mpr ⟨isWordChar_takeWhile text, ?_⟩
  unfold Decimal.Parts.ofText? at read
  split at read
  case h_1 rest pointed =>
    obtain ⟨e, tail, -⟩ := Option.map_eq_some_iff.mp read
    rw [pointed]
    refine List.forall_mem_cons.mpr ⟨rfl, ?_⟩
    rw [← List.takeWhile_append_dropWhile (p := Char.isDigit) (l := rest)]
    exact List.forall_mem_append.mpr ⟨isWordChar_takeWhile rest, isWordChar_of_tail? tail⟩
  case h_2 =>
    obtain ⟨e, tail, -⟩ := Option.map_eq_some_iff.mp read
    exact isWordChar_of_tail? tail

theorem isWordChar_of_strict? {text : List Char} (read : (Decimal.strict? text).isSome = true) :
    ∀ c ∈ text, isWordChar c = true := by
  unfold Decimal.strict? at read
  split at read
  case h_1 negative rest signed =>
    split at read
    case h_1 parts found =>
      have inside := isWordChar_of_ofText? found
      split at signed
      · cases signed
        exact List.forall_mem_cons.mpr ⟨rfl, inside⟩
      · cases signed
        exact inside
    case h_2 => cases read

theorem ofWord?_of_strict? {text : List Char} (read : (Decimal.strict? text).isSome = true) :
    ofWord? text = some (.number (String.ofList text)) := by
  have other (word : String) (none : (Decimal.strict? word.toList).isSome = false) :
      text ≠ word.toList := by
    rintro rfl
    rw [none] at read
    cases read
  rw [ofWord?, if_neg (other _ (by decide)), if_neg (other _ (by decide)),
    if_neg (other _ (by decide)), if_pos read]

/-! ## Marks and blanks -/

theorem scans_mark {c : Char} {token : Token}
    (read : ∀ before, step? ⟨before, .idle⟩ c = some ⟨token :: before, .idle⟩) (rest : List Char) :
    Scans [c] [token] rest :=
  scans_of_foldlM (fun before => by rw [List.foldlM_cons, read]; rfl) rest

theorem scans_lineBreak (level : Nat) (rest : List Char) : Scans (lineBreak level) [] rest := by
  refine scans_of_foldlM (fun before => ?_) rest
  have spaces (count : Nat) :
      (List.replicate count ' ').foldlM step? ⟨before, .idle⟩ = some ⟨before, .idle⟩ := by
    induction count with
    | zero => rfl
    | succ count ih => exact ih
  exact spaces (2 * level)

end Token

/-! ## Values -/

/-- Every number in a value is spelled by the strict grammar. -/
inductive Spelled : Json → Prop where
  | null : Spelled .null
  | boolean (value : Bool) : Spelled (.boolean value)
  | number {literal : String} (strict : (Decimal.strict? literal.toList).isSome = true) :
      Spelled (.number literal)
  | text (content : Option String) : Spelled (.text content)
  | array {items : List Json} (inside : ∀ item ∈ items, Spelled item) : Spelled (.array items)
  | object {members : List (Option String × Json)}
      (inside : ∀ member ∈ members, Spelled member.2) : Spelled (.object members)

mutual

/-- The tokens of a value, in either form. -/
def tokens : Json → List Token
  | null => [.null]
  | boolean value => [.boolean value]
  | number literal => [.number literal]
  | text content => [.text content]
  | array items => .openArray :: (tokensOfItems items ++ [.closeArray])
  | object members => .openObject :: (tokensOfMembers members ++ [.closeObject])
termination_by structural value => value

def tokensOfItems : List Json → List Token
  | [] => []
  | [value] => value.tokens
  | value :: rest => value.tokens ++ .comma :: tokensOfItems rest
termination_by structural items => items

def tokensOfMembers : List (Option String × Json) → List Token
  | [] => []
  | [(key, value)] => .text key :: .colon :: value.tokens
  | (key, value) :: rest => .text key :: .colon :: (value.tokens ++ .comma :: tokensOfMembers rest)
termination_by structural members => members

end

/-! ## Lists in written values -/

/-- What puts the same thing between any two of its parts is an intercalation. -/
theorem eq_intercalate {α β : Type} {between : β} {join : List α → List β} {part : α → List β}
    (none : join [] = []) (one : ∀ a, join [a] = part a)
    (more : ∀ a b rest, join (a :: b :: rest) = part a ++ between :: join (b :: rest))
    (items : List α) : join items = [between].intercalate (items.map part) := by
  induction items with
  | nil => exact none
  | cons a rest ih =>
      cases rest with
      | nil => exact (one a).trans List.intercalate_singleton.symm
      | cons b rest =>
          rw [more, ih]
          simp only [List.map_cons, List.intercalate_cons_cons, List.append_assoc,
            List.singleton_append]

theorem compactItems_eq :
    ∀ items, compactItems items = [','].intercalate (items.map compact) :=
  eq_intercalate rfl (fun _ => rfl) fun _ _ _ => rfl

theorem compactMembers_eq : ∀ members, compactMembers members =
    [','].intercalate (members.map fun m => Quoted.write m.1 ++ ':' :: m.2.compact) :=
  eq_intercalate rfl (fun _ => rfl) fun member _ _ =>
    (List.append_assoc (Quoted.write member.1) (':' :: member.2.compact) _).symm

theorem indentedItems_eq (level : Nat) : ∀ items, indentedItems level items =
    [','].intercalate (items.map fun value => lineBreak level ++ value.indented level) :=
  eq_intercalate rfl (fun _ => rfl) fun _ _ _ => rfl

theorem indentedMembers_eq (level : Nat) : ∀ members, indentedMembers level members =
    [','].intercalate (members.map fun m =>
      lineBreak level ++ Quoted.write m.1 ++ ':' :: ' ' :: m.2.indented level) :=
  eq_intercalate rfl (fun _ => rfl) fun _ _ _ => rfl

theorem tokensOfItems_eq :
    ∀ items, tokensOfItems items = [.comma].intercalate (items.map tokens) :=
  eq_intercalate rfl (fun _ => rfl) fun _ _ _ => rfl

theorem tokensOfMembers_eq : ∀ members, tokensOfMembers members =
    [.comma].intercalate (members.map fun m => .text m.1 :: .colon :: m.2.tokens) :=
  eq_intercalate rfl (fun _ => rfl) fun _ _ _ => rfl

/-! ## Scanning written values -/

namespace Token

theorem Scans.cons {c : Char} {token : Token} {text rest : List Char} {tokens : List Token}
    (mark : ∀ before, step? ⟨before, .idle⟩ c = some ⟨token :: before, .idle⟩)
    (others : Scans text tokens rest) : Scans (c :: text) (token :: tokens) rest :=
  Scans.append (scans_mark mark _) others

theorem endsWord_nil : EndsWord [] := nofun

theorem endsWord_cons {c : Char} (outside : isWordChar c = false) (rest : List Char) :
    EndsWord (c :: rest) := by
  rintro d ⟨⟩
  exact outside

/-- Parts that are scanned wherever a word may end are scanned with commas between them. -/
theorem scans_intercalate {α : Type} {text : α → List Char} {tokens : α → List Token}
    {items : List α}
    (each : ∀ a ∈ items, ∀ rest, EndsWord rest → Scans (text a) (tokens a) rest)
    {rest : List Char} (ends : EndsWord rest) :
    Scans ([','].intercalate (items.map text)) ([.comma].intercalate (items.map tokens)) rest := by
  induction items with
  | nil => exact fun before => rfl
  | cons a more ih =>
      obtain ⟨first, others⟩ := List.forall_mem_cons.mp each
      cases more with
      | nil => simpa using first rest ends
      | cons b more =>
          have remaining := ih others
          simp only [List.map_cons] at remaining ⊢
          rw [List.intercalate_cons_cons, List.intercalate_cons_cons, List.append_assoc,
            List.append_assoc]
          exact (first _ (endsWord_cons rfl _)).append (Scans.cons (fun _ => rfl) remaining)

/-- The compact text of a value is scanned as its tokens. -/
theorem scans_compact {value : Json} (spelled : Spelled value) :
    ∀ rest, EndsWord rest → Scans value.compact value.tokens rest := by
  induction spelled with
  | null => exact fun rest => scans_word (List.all_eq_true.mp (by decide)) rfl
  | boolean value =>
      cases value <;> exact fun rest => scans_word (List.all_eq_true.mp (by decide)) rfl
  | number strict =>
      intro rest
      have known := ofWord?_of_strict? strict
      rw [String.ofList_toList] at known
      exact scans_word (isWordChar_of_strict? strict) known
  | text content => exact fun rest _ => scans_quoted content rest
  | array inside ih =>
      intro rest _
      have items := scans_intercalate ih (endsWord_cons (c := ']') rfl rest)
      rw [compact, tokens, compactItems_eq, tokensOfItems_eq]
      exact Scans.cons (fun _ => rfl) (items.append (scans_mark (fun _ => rfl) rest))
  | object inside ih =>
      intro rest _
      rw [compact, tokens, compactMembers_eq, tokensOfMembers_eq]
      refine Scans.cons (fun _ => rfl) (Scans.append ?_ (scans_mark (fun _ => rfl) rest))
      refine scans_intercalate (fun member present rest ends => ?_) (endsWord_cons rfl _)
      exact (scans_quoted member.1 _).append
        (Scans.cons (fun _ => rfl) (ih member present rest ends))

theorem Scans.blank {text rest : List Char} {tokens : List Token}
    (scanned : Scans text tokens rest) : Scans (' ' :: text) tokens rest := by
  intro before
  have passed : [' '].foldlM step? ⟨before, .idle⟩ = some ⟨before, .idle⟩ := rfl
  exact (scanFrom_append passed _).trans (scanned before)

/-- So is its indented text, at any level. -/
theorem scans_indented {value : Json} (spelled : Spelled value) :
    ∀ level rest, EndsWord rest → Scans (value.indented level) value.tokens rest := by
  induction spelled with
  | null => exact fun _ => scans_compact .null
  | boolean value => exact fun _ => scans_compact (.boolean value)
  | number strict => exact fun _ => scans_compact (.number strict)
  | text content => exact fun _ => scans_compact (.text content)
  | @array items inside ih =>
      intro level rest ends
      cases items with
      | nil => exact scans_compact (.array inside) rest ends
      | cons first others =>
          have closing : Scans (lineBreak level ++ [']']) [.closeArray] rest :=
            (scans_lineBreak level _).append (scans_mark (fun _ => rfl) rest)
          have written : (Json.array (first :: others)).indented level =
              '[' :: (indentedItems (level + 1) (first :: others) ++
                (lineBreak level ++ [']'])) := by
            rw [← List.append_assoc]
            rfl
          rw [written, tokens, indentedItems_eq, tokensOfItems_eq]
          refine Scans.cons (fun _ => rfl) (Scans.append ?_ closing)
          refine scans_intercalate (fun item present rest ends => ?_) (endsWord_cons rfl _)
          exact (scans_lineBreak _ _).append (ih item present _ rest ends)
  | @object members inside ih =>
      intro level rest ends
      cases members with
      | nil => exact scans_compact (.object inside) rest ends
      | cons first others =>
          have closing : Scans (lineBreak level ++ ['\x7d']) [.closeObject] rest :=
            (scans_lineBreak level _).append (scans_mark (fun _ => rfl) rest)
          have written : (Json.object (first :: others)).indented level =
              '\x7b' :: (indentedMembers (level + 1) (first :: others) ++
                (lineBreak level ++ ['\x7d'])) := by
            rw [← List.append_assoc]
            rfl
          rw [written, tokens, indentedMembers_eq, tokensOfMembers_eq]
          refine Scans.cons (fun _ => rfl) (Scans.append ?_ closing)
          refine scans_intercalate (fun member present rest ends => ?_) (endsWord_cons rfl _)
          exact ((scans_lineBreak _ _).append (scans_quoted member.1 _)).append
            (Scans.cons (fun _ => rfl) (Scans.blank (ih member present _ rest ends)))

end Token

end MixedInteger.Json
