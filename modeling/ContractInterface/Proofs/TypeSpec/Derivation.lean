import ContractInterface.Proofs.TypeSpec.Reading

/-! Derivations in the grammar of types. A derivation keeps every character of the text that it
spells, so that a text has no more than one, and the reader gives the type that is derived. -/
namespace ContractInterface.TypeSpec
open Text

/-- What stands between the brackets of a dimension. -/
@[ext] structure Dimension where
  digits : List Char
  digit : ∀ c ∈ digits, c.isDigit = true
  limit : digits.length ≤ digitLimit
  positive : digits ≠ [] → asciiNumber digits ≠ 0

/-- An identifier. -/
@[ext] structure Word where
  chars : List Char
  valid : Identifier.isValid chars = true

@[ext] structure Blank where
  chars : List Char
  blanks : AllBlank chars

mutual

/-- A derivation of a type. The word `tuple` may stand in front of a parenthesis. -/
inductive Derivation
  | named (name : Word) (dims : List Dimension)
  | unit (keyword : Bool) (blank : Blank) (dims : List Dimension)
  | tuple (keyword : Bool) (members : Members) (dims : List Dimension)

/-- The members of a tuple that has at least one, with the blanks around each. -/
inductive Members
  | last (before : Blank) (member : Derivation) (after : Blank)
  | cons (before : Blank) (member : Derivation) (after : Blank) (others : Members)

end

namespace Dimension

def text (d : Dimension) : List Char := '[' :: d.digits ++ [']']

def size (d : Dimension) : Option Nat :=
  if d.digits.isEmpty then none else some (asciiNumber d.digits)

def texts (dims : List Dimension) : List Char := dims.flatMap text

theorem size_valid (d : Dimension) : Size d.digits d.size := by
  unfold size
  split
  · next hd =>
    rw [List.isEmpty_iff.mp hd]
    exact .unbounded
  · next hd =>
    have hne : d.digits ≠ [] := by simpa using hd
    exact .bounded hne d.digit d.limit (d.positive hne)

theorem dimensions (dims : List Dimension) : Dimensions (texts dims) (dims.map size) := by
  induction dims with
  | nil => exact .nil
  | cons d dims ih =>
    have h := Dimensions.cons d.size_valid ih
    rwa [List.append_cons] at h

end Dimension

theorem Size.exists_dimension {digits : List Char} {size : Option Nat} (h : Size digits size) :
    ∃ d : Dimension, d.digits = digits ∧ d.size = size := by
  cases h with
  | unbounded =>
    exact ⟨⟨[], by simp, Nat.zero_le _, fun h => absurd rfl h⟩, rfl, rfl⟩
  | bounded nonempty digit limit positive =>
    exact ⟨⟨digits, digit, limit, fun _ => positive⟩, rfl, if_neg (by simpa using nonempty)⟩

theorem Dimensions.exists_derivation {ds : List Char} {sizes : List (Option Nat)}
    (h : Dimensions ds sizes) :
    ∃ dims, Dimension.texts dims = ds ∧ dims.map Dimension.size = sizes := by
  induction h with
  | nil => exact ⟨[], rfl, rfl⟩
  | cons first _ ih =>
    obtain ⟨d, rfl, rfl⟩ := first.exists_dimension
    obtain ⟨dims, rfl, rfl⟩ := ih
    exact ⟨d :: dims, by simp [Dimension.texts, Dimension.text], rfl⟩

/-- Dimensions are told apart by their text. -/
theorem Dimension.texts_injective : Function.Injective Dimension.texts := by
  intro dims
  induction dims with
  | nil =>
    intro dims' h
    cases dims' with
    | nil => rfl
    | cons _ _ => cases h
  | cons d dims ih =>
    intro dims' h
    cases dims' with
    | nil => cases h
    | cons d' dims' =>
      have hdigits : d.digits ++ ']' :: texts dims = d'.digits ++ ']' :: texts dims' := by
        simpa [texts, text] using h
      obtain ⟨hd, hrest⟩ := append_inj_of_run d.digit d'.digit rfl rfl hdigits
      rw [Dimension.ext hd, ih (List.cons.inj hrest).2]

/-- The word `tuple`, if it is written. -/
def keywordText (keyword : Bool) : List Char := if keyword then ['t', 'u', 'p', 'l', 'e'] else []

theorem tupleWord_keywordText (keyword : Bool) : TupleWord (keywordText keyword) := by
  cases keyword with
  | false => exact .absent
  | true => exact .present

theorem TupleWord.exists_keyword {word : List Char} (h : TupleWord word) :
    ∃ keyword, keywordText keyword = word := by
  cases h with
  | absent => exact ⟨false, rfl⟩
  | present => exact ⟨true, rfl⟩

theorem keywordText_append_inj {keyword keyword' : Bool} {r r' : List Char}
    (h : keywordText keyword ++ '(' :: r = keywordText keyword' ++ '(' :: r') :
    keyword = keyword' ∧ r = r' := by
  cases keyword <;> cases keyword' <;> cases h <;> exact ⟨rfl, rfl⟩

mutual

/-- The text that a derivation spells. -/
def Derivation.text : Derivation → List Char
  | .named name dims => name.chars ++ Dimension.texts dims
  | .unit keyword blank dims =>
    keywordText keyword ++ '(' :: blank.chars ++ ')' :: Dimension.texts dims
  | .tuple keyword members dims =>
    keywordText keyword ++ '(' :: members.text ++ ')' :: Dimension.texts dims

def Members.text : Members → List Char
  | .last before member after => before.chars ++ member.text ++ after.chars
  | .cons before member after others =>
    before.chars ++ member.text ++ after.chars ++ ',' :: others.text

end

mutual

/-- How many tuples are open inside one another. -/
def Derivation.nesting : Derivation → Nat
  | .named _ _ => 0
  | .unit _ _ _ => 1
  | .tuple _ members _ => members.nesting + 1

def Members.nesting : Members → Nat
  | .last _ member _ => member.nesting
  | .cons _ member _ others => max member.nesting others.nesting

end

mutual

/-- The type that is derived. Every node keeps the text that it is derived from. -/
def Derivation.typeSpec : Derivation → TypeSpec
  | .named name dims =>
    .named (.ofList (name.chars ++ Dimension.texts dims)) (.ofList name.chars)
      (dims.map Dimension.size)
  | .unit keyword blank dims =>
    .tuple (.ofList (keywordText keyword ++ '(' :: blank.chars ++ ')' :: Dimension.texts dims))
      (.ofList (keywordText keyword ++ '(' :: blank.chars ++ [')'])) [] (dims.map Dimension.size)
  | .tuple keyword members dims =>
    .tuple (.ofList (keywordText keyword ++ '(' :: members.text ++ ')' :: Dimension.texts dims))
      (.ofList (keywordText keyword ++ '(' :: members.text ++ [')'])) members.typeSpecs
      (dims.map Dimension.size)

def Members.typeSpecs : Members → List TypeSpec
  | .last _ member _ => [member.typeSpec]
  | .cons _ member _ others => member.typeSpec :: others.typeSpecs

end

theorem Members.exists_typeSpecs (m : Members) : ∃ t ts, m.typeSpecs = t :: ts := by
  cases m <;> exact ⟨_, _, rfl⟩

mutual

/-- The type that is derived is written by the text that is spelled. -/
theorem Derivation.written (d : Derivation) : Written d.nesting d.text d.typeSpec := by
  cases d with
  | named name dims => exact .named name.valid (Dimension.dimensions dims)
  | unit keyword blank dims =>
    exact .tuple (tupleWord_keywordText keyword) (.empty blank.blanks) (Dimension.dimensions dims)
  | tuple keyword members dims =>
    exact .tuple (tupleWord_keywordText keyword) members.body (Dimension.dimensions dims)

theorem Members.body (m : Members) : Body m.nesting m.text m.typeSpecs := by
  cases m with
  | last before member after => exact .last before.blanks member.written after.blanks
  | cons before member after others =>
    have hmember := member.written.mono (Nat.le_max_left member.nesting others.nesting)
    have hothers := others.body.mono (Nat.le_max_right member.nesting others.nesting)
    obtain ⟨t, ts, hts⟩ := others.exists_typeSpecs
    rw [hts] at hothers
    rw [Members.text, Members.typeSpecs, Members.nesting, hts]
    exact .cons before.blanks hmember after.blanks hothers

end

mutual

/-- What is written is spelled by a derivation. -/
theorem Written.exists_derivation {n : Nat} {cs : List Char} {t : TypeSpec}
    (h : Written n cs t) : ∃ d : Derivation, d.text = cs ∧ d.typeSpec = t ∧ d.nesting ≤ n := by
  cases h with
  | @named _ name _ _ identifier hdims =>
    obtain ⟨dims, rfl, rfl⟩ := hdims.exists_derivation
    exact ⟨.named ⟨name, identifier⟩ dims, rfl, rfl, Nat.zero_le n⟩
  | tuple hkeyword inside hdims =>
    obtain ⟨keyword, rfl⟩ := hkeyword.exists_keyword
    obtain ⟨dims, rfl, rfl⟩ := hdims.exists_derivation
    rcases inside.exists_members with ⟨blanks, rfl⟩ | ⟨members, rfl, rfl, hle⟩
    · exact ⟨.unit keyword ⟨_, blanks⟩ dims, rfl, rfl, Nat.succ_le_succ (Nat.zero_le _)⟩
    · exact ⟨.tuple keyword members dims, rfl, rfl, Nat.succ_le_succ hle⟩

theorem Body.exists_members {n : Nat} {body : List Char} {ts : List TypeSpec}
    (h : Body n body ts) :
    AllBlank body ∧ ts = [] ∨ ∃ m : Members, m.text = body ∧ m.typeSpecs = ts ∧ m.nesting ≤ n := by
  cases h with
  | empty blanks => exact .inl ⟨blanks, rfl⟩
  | last leading member trailing =>
    obtain ⟨d, rfl, rfl, hle⟩ := member.exists_derivation
    exact .inr ⟨.last ⟨_, leading⟩ d ⟨_, trailing⟩, rfl, rfl, hle⟩
  | cons leading member trailing others =>
    obtain ⟨d, rfl, rfl, hle⟩ := member.exists_derivation
    rcases others.exists_members with ⟨-, hts⟩ | ⟨m, rfl, hts, hle'⟩
    · cases hts
    · refine .inr ⟨.cons ⟨_, leading⟩ d ⟨_, trailing⟩ m, rfl, ?_, Nat.max_le.mpr ⟨hle, hle'⟩⟩
      rw [Members.typeSpecs, hts]

end

/-- The blanks in front of a type are told apart from it, as it begins with none. -/
theorem Blank.append_text_inj {d : Derivation} {before before' : Blank} {r r' : List Char}
    (h : before.chars ++ (d.text ++ r) = before'.chars ++ (d.text ++ r')) :
    before = before' ∧ r = r' := by
  obtain ⟨c, s, hd, hc, -⟩ := d.written.exists_cons_not_isBlank
  rw [hd] at h
  have hdrop (r : List Char) : (c :: s ++ r).dropWhile isBlank = c :: s ++ r := dropBlank_cons hc _
  obtain ⟨hbefore, hr⟩ := append_inj_of_run before.blanks before'.blanks (hdrop r) (hdrop r') h
  exact ⟨Blank.ext hbefore, List.append_cancel_left hr⟩

/-- The body of a tuple tells apart the words and what is inside, and the span the dimensions. -/
theorem keyword_dims_inj {keyword keyword' : Bool} {body body' : List Char}
    {dims dims' : List Dimension}
    (hbody : keywordText keyword ++ '(' :: body ++ [')'] =
      keywordText keyword' ++ '(' :: body' ++ [')'])
    (hspan : keywordText keyword ++ '(' :: body ++ ')' :: Dimension.texts dims =
      keywordText keyword' ++ '(' :: body' ++ ')' :: Dimension.texts dims') :
    keyword = keyword' ∧ body = body' ∧ dims = dims' := by
  have hinside := List.append_cancel_right hbody
  obtain ⟨rfl, rfl⟩ := keywordText_append_inj hinside
  have hdims := (List.cons.inj (List.append_cancel_left hspan)).2
  exact ⟨rfl, rfl, Dimension.texts_injective hdims⟩

mutual

/-- The type that is derived is the whole derivation. -/
theorem Derivation.eq_of_typeSpec_eq {d d' : Derivation} (h : d.typeSpec = d'.typeSpec) :
    d = d' := by
  cases d with
  | named name dims =>
    cases d' with
    | named name' dims' =>
      simp only [Derivation.typeSpec, TypeSpec.named.injEq, String.ofList_inj] at h
      obtain ⟨hspan, hname, -⟩ := h
      obtain rfl := Word.ext hname
      rw [Dimension.texts_injective (List.append_cancel_left hspan)]
    | unit _ _ _ => cases h
    | tuple _ _ _ => cases h
  | unit keyword blank dims =>
    cases d' with
    | named _ _ => cases h
    | unit keyword' blank' dims' =>
      simp only [Derivation.typeSpec, TypeSpec.tuple.injEq, String.ofList_inj] at h
      obtain ⟨rfl, hblank, rfl⟩ := keyword_dims_inj h.2.1 h.1
      rw [Blank.ext hblank]
    | tuple keyword' members dims' =>
      obtain ⟨t, ts, hts⟩ := members.exists_typeSpecs
      simp only [Derivation.typeSpec, TypeSpec.tuple.injEq, hts] at h
      cases h.2.2.1
  | tuple keyword members dims =>
    cases d' with
    | named _ _ => cases h
    | unit keyword' blank' dims' =>
      obtain ⟨t, ts, hts⟩ := members.exists_typeSpecs
      simp only [Derivation.typeSpec, TypeSpec.tuple.injEq, hts] at h
      cases h.2.2.1
    | tuple keyword' members' dims' =>
      simp only [Derivation.typeSpec, TypeSpec.tuple.injEq, String.ofList_inj] at h
      obtain ⟨rfl, hmembers, rfl⟩ := keyword_dims_inj h.2.1 h.1
      rw [Members.eq_of_typeSpecs_eq h.2.2.1 hmembers]

theorem Members.eq_of_typeSpecs_eq {m m' : Members} (h : m.typeSpecs = m'.typeSpecs)
    (htext : m.text = m'.text) : m = m' := by
  -- the members are the same by their types, so that the text is left to tell apart the blanks
  cases m with
  | last before member after =>
    cases m' with
    | last before' member' after' =>
      obtain rfl := Derivation.eq_of_typeSpec_eq (List.singleton_inj.mp h)
      simp only [Members.text, List.append_assoc] at htext
      obtain ⟨rfl, hafter⟩ := Blank.append_text_inj htext
      rw [Blank.ext hafter]
    | cons _ _ _ others' =>
      obtain ⟨t, ts, hts⟩ := others'.exists_typeSpecs
      simp [Members.typeSpecs, hts] at h
  | cons before member after others =>
    cases m' with
    | last _ _ _ =>
      obtain ⟨t, ts, hts⟩ := others.exists_typeSpecs
      simp [Members.typeSpecs, hts] at h
    | cons before' member' after' others' =>
      obtain ⟨hmember, hothers⟩ := List.cons.inj h
      obtain rfl := Derivation.eq_of_typeSpec_eq hmember
      simp only [Members.text, List.append_assoc] at htext
      obtain ⟨rfl, hrest⟩ := Blank.append_text_inj htext
      obtain ⟨hafter, hcomma⟩ := append_inj_of_run after.blanks after'.blanks rfl rfl hrest
      rw [Blank.ext hafter, Members.eq_of_typeSpecs_eq hothers (List.cons.inj hcomma).2]

end

/-- No text has two derivations. -/
theorem Derivation.text_injective : Function.Injective text := by
  intro d d' h
  apply eq_of_typeSpec_eq
  have hd := d.written.mono (Nat.le_max_left d.nesting d'.nesting)
  have hd' := d'.written.mono (Nat.le_max_right d.nesting d'.nesting)
  rw [h] at hd
  exact hd.unique hd'

/-- A text is read exactly if it has a derivation without the blanks around it, in which no more
tuples are open at once than may be, and what is read is the type that is derived. There is no
other derivation of the text, and the type keeps all of it. With half of a surrogate pair in it, a
text is not read. -/
theorem parse_eq_ok_iff_derivation :
    (∀ (s : String) (t : TypeSpec), parse s = .ok t ↔ ∃ d : Derivation,
      d.text = trim s.toList ∧ d.nesting ≤ maxNesting ∧ d.typeSpec = t) ∧
      Function.Injective Derivation.text ∧ Function.Injective Derivation.typeSpec ∧
      ∀ (text : Utf16) (t : TypeSpec), ofText text = .ok t → ∃ s : String, text = s := by
  refine ⟨fun s t => ?_, Derivation.text_injective, fun _ _ => Derivation.eq_of_typeSpec_eq, ?_⟩
  · rw [parse_eq_ok]
    constructor
    · intro h
      obtain ⟨d, htext, ht, hle⟩ := h.exists_derivation
      exact ⟨d, htext, hle, ht⟩
    · rintro ⟨d, htext, hle, rfl⟩
      rw [← htext]
      exact d.written.mono hle
  · intro text t h
    cases hs : text.toString? with
    | some s => exact ⟨s, Utf16.toString?_eq_some_iff.mp hs⟩
    | none =>
      rw [ofText, hs] at h
      cases h

end ContractInterface.TypeSpec
