import ContractInterface.Proofs.Sequencing
import ContractInterface.Proofs.TypeSpec.Grammar

/-! The reader of types accepts exactly what the grammar derives, and gives the derived tree. -/
namespace ContractInterface.TypeSpec
open Sequencing Text

theorem consumed_append (cs rest : List Char) : consumed (cs ++ rest) rest = .ofList cs := by
  simp [consumed]

theorem dimension_eq_ok {digits : List Char} {size : Option Nat}
    (hd : ∀ c ∈ digits, c.isDigit = true) : dimension digits = .ok size ↔ Size digits size := by
  unfold dimension
  constructor
  · intro h
    split at h
    · next he =>
      cases h
      rw [List.isEmpty_iff.mp he]
      exact .unbounded
    · next he =>
      split at h
      · cases h
      · next hlimit =>
        split at h
        · cases h
        · next hzero =>
          cases h
          exact .bounded (by simpa using he) hd (by omega) hzero
  · intro h
    cases h with
    | unbounded => rfl
    | bounded nonempty digit limit positive =>
      rw [if_neg (by simpa using nonempty), if_neg (by omega), if_neg positive]

theorem dimensions_cons {digits rest : List Char} (hd : ∀ c ∈ digits, c.isDigit = true) :
    dimensions ('[' :: (digits ++ ']' :: rest)) =
      (do
        let n ← dimension digits
        let (ns, rest) ← dimensions rest
        .ok (n :: ns, rest)) := by
  have hdrop : (digits ++ ']' :: rest).dropWhile Char.isDigit = ']' :: rest := by
    rw [List.dropWhile_append_of_pos hd]
    rfl
  have htake : (digits ++ ']' :: rest).takeWhile Char.isDigit = digits := by
    rw [List.takeWhile_append_of_pos hd]
    simp
  rw [dimensions]
  split
  · next rest' h =>
    obtain rfl : rest = rest' := (List.cons.inj (hdrop.symm.trans h)).2
    rw [htake]
  · next h => exact absurd hdrop (h rest)

theorem dimensions_of_not_bracket {cs : List Char} (h : ∀ r, cs ≠ '[' :: r) :
    dimensions cs = .ok ([], cs) := by
  rw [dimensions]
  exact h

theorem dimensions_sound {cs rest : List Char} {sizes : List (Option Nat)}
    (h : dimensions cs = .ok (sizes, rest)) : ∃ ds, cs = ds ++ rest ∧ Dimensions ds sizes := by
  induction cs using dimensions.induct generalizing sizes with
  | case1 r rest' hdrop ih =>
    have hd : ∀ c ∈ r.takeWhile Char.isDigit, c.isDigit = true :=
      List.all_eq_true.mp List.all_takeWhile
    have hr : r = r.takeWhile Char.isDigit ++ ']' :: rest' := by
      rw [← hdrop, List.takeWhile_append_dropWhile]
    rw [hr, dimensions_cons hd] at h
    obtain ⟨size, hsize, h⟩ := bind_eq_ok.mp h
    obtain ⟨⟨sizes', rest''⟩, hsizes, h⟩ := bind_eq_ok.mp h
    cases h
    obtain ⟨ds, rfl, hds⟩ := ih hsizes
    refine ⟨'[' :: r.takeWhile Char.isDigit ++ ']' :: ds, ?_, ?_⟩
    · rw [hr]
      simp [List.takeWhile_append_of_pos hd]
    · exact .cons ((dimension_eq_ok hd).mp hsize) hds
  | case2 r hdrop =>
    rw [dimensions] at h
    split at h
    · next hd => exact absurd hd (hdrop _)
    · cases h
  | case3 cs hcs =>
    rw [dimensions_of_not_bracket hcs] at h
    cases h
    exact ⟨[], rfl, .nil⟩

theorem Dimensions.dimensions_append {ds rest : List Char} {sizes : List (Option Nat)}
    (h : Dimensions ds sizes) (hr : ∀ r, rest ≠ '[' :: r) :
    dimensions (ds ++ rest) = .ok (sizes, rest) := by
  induction h with
  | nil => exact dimensions_of_not_bracket hr
  | @cons digits ds size sizes first _ ih =>
    have hd := first.isDigit
    simp only [List.cons_append, List.append_assoc]
    rw [dimensions_cons hd, ih, (dimension_eq_ok hd).mpr first]
    rfl

theorem tupleBody?_eq_some {cs body : List Char} :
    tupleBody? cs = some body ↔ ∃ word, TupleWord word ∧ cs = word ++ '(' :: body := by
  constructor
  · intro h
    unfold tupleBody? at h
    split at h
    · cases h
      exact ⟨[], .absent, rfl⟩
    · cases h
      exact ⟨_, .present, rfl⟩
    · cases h
  · rintro ⟨word, hw, rfl⟩
    cases hw <;> rfl

theorem read_of_tupleBody?_eq_none {n : Nat} {cs name rest : List Char}
    (ht : tupleBody? cs = none) (hs : Identifier.split? cs = some (name, rest)) :
    read n cs =
      (do
        let (sizes, rest) ← dimensions rest
        .ok (.named (consumed cs rest) (.ofList name) sizes, rest)) := by
  cases n <;> rw [read, ht, hs]

theorem read_succ_of_tupleBody?_eq_some {n : Nat} {cs body : List Char}
    (ht : tupleBody? cs = some body) :
    read (n + 1) cs =
      (do
        let (ts, stem) ← inside (read n) body
        let (sizes, rest) ← dimensions stem
        .ok (.tuple (consumed cs rest) (consumed cs stem) ts sizes, rest)) := by
  rw [read, ht]

section
variable {n : Nat} {member : List Char → Except Halt (TypeSpec × List Char)}

theorem members_sound
    (hm : ∀ {cs t rest}, member cs = .ok (t, rest) → ∃ text, cs = text ++ rest ∧ Written n text t)
    {k : Nat} {cs rest : List Char} {ts : List TypeSpec}
    (h : members member k cs = .ok (ts, rest)) :
    ∃ body, cs = body ++ ')' :: rest ∧ Body n body ts ∧ ts ≠ [] := by
  induction k generalizing cs ts with
  | zero => cases h
  | succ k ih =>
    rw [members] at h
    obtain ⟨⟨t, r⟩, ht, h⟩ := bind_eq_ok.mp h
    obtain ⟨text, htext, hw⟩ := hm ht
    obtain ⟨before, hb, hcs⟩ := exists_append_dropBlank cs
    obtain ⟨after, ha, hr⟩ := exists_append_dropBlank r
    rw [htext, hr] at hcs
    dsimp only at h
    split at h
    · cases h
    · next r' hd =>
      obtain ⟨⟨ts', rest'⟩, hts, h⟩ := bind_eq_ok.mp h
      cases h
      obtain ⟨body, hbody, hB, hne⟩ := ih hts
      obtain ⟨t', ts', rfl⟩ := List.exists_cons_of_ne_nil hne
      refine ⟨before ++ text ++ after ++ ',' :: body, ?_, .cons hb hw ha hB, by simp⟩
      rw [hcs, hd, hbody]
      simp
    · next r' hd =>
      cases h
      refine ⟨before ++ text ++ after, ?_, .last hb hw ha, by simp⟩
      rw [hcs, hd]
      simp
    · cases h

theorem inside_sound
    (hm : ∀ {cs t rest}, member cs = .ok (t, rest) → ∃ text, cs = text ++ rest ∧ Written n text t)
    {cs rest : List Char} {ts : List TypeSpec} (h : inside member cs = .ok (ts, rest)) :
    ∃ body, cs = body ++ ')' :: rest ∧ Body n body ts := by
  obtain ⟨blank, hb, hcs⟩ := exists_append_dropBlank cs
  unfold inside at h
  split at h
  · next r hd =>
    cases h
    exact ⟨blank, by rw [hcs, hd], .empty hb⟩
  · obtain ⟨body, hbody, hB, -⟩ := members_sound hm h
    refine ⟨blank ++ body, ?_, hB.leading_append hb⟩
    rw [hcs, hbody, List.append_assoc]

end

theorem read_sound_of_tupleBody?_eq_none {n : Nat} {cs rest : List Char} {t : TypeSpec}
    (ht : tupleBody? cs = none) (h : read n cs = .ok (t, rest)) :
    ∃ text, cs = text ++ rest ∧ Written n text t := by
  cases hs : Identifier.split? cs with
  | none =>
    unfold read at h
    rw [ht, hs] at h
    cases h
  | some p =>
    obtain ⟨name, r⟩ := p
    rw [read_of_tupleBody?_eq_none ht hs] at h
    obtain ⟨⟨sizes, rest'⟩, hd, h⟩ := bind_eq_ok.mp h
    cases h
    obtain ⟨ds, rfl, hds⟩ := dimensions_sound hd
    have hcs : cs = (name ++ ds) ++ rest := by
      rw [← Identifier.split?_append hs, List.append_assoc]
    refine ⟨name ++ ds, hcs, ?_⟩
    rw [hcs, consumed_append]
    exact .named (Identifier.isValid_of_split? hs).1 hds

/-- What is read is derived. -/
theorem read_sound {n : Nat} {cs rest : List Char} {t : TypeSpec}
    (h : read n cs = .ok (t, rest)) : ∃ text, cs = text ++ rest ∧ Written n text t := by
  induction n generalizing cs t rest with
  | zero =>
    cases ht : tupleBody? cs with
    | none => exact read_sound_of_tupleBody?_eq_none ht h
    | some body =>
      rw [read, ht] at h
      cases h
  | succ n ih =>
    cases ht : tupleBody? cs with
    | none => exact read_sound_of_tupleBody?_eq_none ht h
    | some body =>
      rw [read_succ_of_tupleBody?_eq_some ht] at h
      obtain ⟨⟨ts, stem⟩, hin, h⟩ := bind_eq_ok.mp h
      obtain ⟨⟨sizes, rest'⟩, hd, h⟩ := bind_eq_ok.mp h
      cases h
      obtain ⟨word, hword, rfl⟩ := tupleBody?_eq_some.mp ht
      obtain ⟨body', rfl, hB⟩ := inside_sound ih hin
      obtain ⟨ds, rfl, hds⟩ := dimensions_sound hd
      have hcs : word ++ '(' :: (body' ++ ')' :: (ds ++ rest)) =
          (word ++ '(' :: body' ++ ')' :: ds) ++ rest := by simp
      have hstem : word ++ '(' :: (body' ++ ')' :: (ds ++ rest)) =
          (word ++ '(' :: body' ++ [')']) ++ (ds ++ rest) := by simp
      refine ⟨_, hcs, ?_⟩
      have hw := Written.tuple hword hB hds
      rw [← consumed_append _ rest, ← hcs, ← consumed_append _ (ds ++ rest), ← hstem] at hw
      exact hw

/-- Whether a text can follow a type: none of it could belong to the type. -/
def Stops (rest : List Char) : Prop :=
  ∀ c r, rest = c :: r → Identifier.isPart c = false ∧ c ≠ '[' ∧ c ≠ '('

theorem Stops.nil : Stops [] := by simp [Stops]

theorem Stops.cons {c : Char} (h : c = ',' ∨ c = ')') (r : List Char) : Stops (c :: r) := by
  intro d s hd
  cases hd
  rcases h with rfl | rfl <;> decide

theorem Stops.blank_append {blank rest : List Char} (hb : AllBlank blank) (h : Stops rest) :
    Stops (blank ++ rest) := by
  cases blank with
  | nil => exact h
  | cons b blank =>
    intro c r hc
    cases hc
    have hblank := hb b (by simp)
    refine ⟨?_, ?_, ?_⟩
    · rw [Bool.eq_false_iff]
      intro hp
      rw [Identifier.isBlank_of_isPart hp] at hblank
      cases hblank
    · rintro rfl
      cases hblank
    · rintro rfl
      cases hblank

theorem Dimensions.append_cons_cases {ds rest : List Char} {sizes : List (Option Nat)}
    (h : Dimensions ds sizes) (hs : Stops rest) {c : Char} {r : List Char}
    (hc : ds ++ rest = c :: r) : Identifier.isPart c = false ∧ c ≠ '(' := by
  rcases h.eq_nil_or_cons with rfl | ⟨s, rfl⟩
  · exact ⟨(hs c r hc).1, (hs c r hc).2.2⟩
  · cases hc
    decide

/-- An identifier is not taken for a tuple if it ends where it seems to. -/
theorem tupleBody?_identifier {name rest : List Char} (hn : Identifier.isValid name = true)
    (hr : ∀ c r, rest = c :: r → Identifier.isPart c = false ∧ c ≠ '(') :
    tupleBody? (name ++ rest) = none := by
  rw [Option.eq_none_iff_forall_not_mem]
  intro body hbody
  obtain ⟨word, hword, h⟩ := tupleBody?_eq_some.mp hbody
  have hsplit := Identifier.split?_of_isValid hn (fun c r hc => (hr c r hc).1)
  rw [h] at hsplit
  cases hword with
  | absent => cases hsplit
  | present =>
    have hword : Identifier.split? (['t', 'u', 'p', 'l', 'e'] ++ '(' :: body) =
        some (['t', 'u', 'p', 'l', 'e'], '(' :: body) := rfl
    rw [hword] at hsplit
    have hrest : '(' :: body = rest := congrArg Prod.snd (Option.some.inj hsplit)
    exact (hr _ _ hrest.symm).2 rfl

theorem tupleBody?_named {name ds rest : List Char} {sizes : List (Option Nat)}
    (hn : Identifier.isValid name = true) (hd : Dimensions ds sizes) (hs : Stops rest) :
    tupleBody? (name ++ (ds ++ rest)) = none :=
  tupleBody?_identifier hn fun _ _ hc => hd.append_cons_cases hs hc

theorem members_dropBlank (member : List Char → Except Halt (TypeSpec × List Char)) (k : Nat)
    (cs : List Char) : members member k (dropBlank cs) = members member k cs := by
  cases k with
  | zero => rfl
  | succ k => rw [members, members, dropBlank_dropBlank]

/-- A body is read if its members are. -/
theorem Body.inside_append {n : Nat} {body rest : List Char} {ts : List TypeSpec}
    (h : Body n body ts)
    (hm : ∀ k, ts ≠ [] → ts.length ≤ k →
      members (read n) k (body ++ ')' :: rest) = .ok (ts, rest)) :
    inside (read n) (body ++ ')' :: rest) = .ok (ts, rest) := by
  cases ts with
  | nil =>
    cases h with
    | empty blanks =>
      rw [inside, dropBlank_append blanks, dropBlank_cons (by decide)]
      rfl
  | cons t ts =>
    obtain ⟨blank, cs, hb, rfl, hcs, text, r, rfl, hw⟩ := h.exists_dropBlank
    obtain ⟨c, s, rfl, hc, hparen⟩ := hw.exists_cons_not_isBlank
    have hlen := hcs.length_le
    have hdrop :
        dropBlank (blank ++ (c :: s ++ r) ++ ')' :: rest) = c :: s ++ r ++ ')' :: rest := by
      rw [List.append_assoc, dropBlank_append hb]
      exact dropBlank_cons hc _
    rw [inside]
    split
    · next r' hr' =>
      rw [hdrop] at hr'
      exact absurd (List.cons.inj hr').1 hparen
    · rw [members_dropBlank]
      apply hm _ (by simp)
      rw [hdrop]
      simp only [List.length_cons, List.length_append] at *
      omega

/-- One member and what follows it. -/
theorem members_succ {n k : Nat} {before cs after r : List Char} {c : Char} {t : TypeSpec}
    (hb : AllBlank before) (hw : Written n cs t) (ha : AllBlank after) (hc : c = ',' ∨ c = ')')
    (hread : read n (cs ++ (after ++ c :: r)) = .ok (t, after ++ c :: r)) :
    members (read n) (k + 1) (before ++ cs ++ after ++ c :: r) =
      if c = ',' then (members (read n) k r).map fun (ts, rest) => (t :: ts, rest)
      else .ok ([t], r) := by
  obtain ⟨d, s, rfl, hd, -⟩ := hw.exists_cons_not_isBlank
  have hcb : isBlank c = false := by rcases hc with rfl | rfl <;> decide
  have hdrop : dropBlank (before ++ (d :: s) ++ after ++ c :: r) = d :: s ++ (after ++ c :: r) := by
    rw [List.append_assoc, List.append_assoc, dropBlank_append hb]
    exact dropBlank_cons hd _
  rw [members, hdrop, hread]
  simp only [bind, Except.bind, dropBlank_append ha, dropBlank_cons hcb]
  rcases hc with rfl | rfl
  · simp only [if_true]
    cases members (read n) k r <;> rfl
  · rfl

mutual

/-- What is derived is read, unless what follows could belong to it. -/
theorem Written.read_append {n : Nat} {cs rest : List Char} {t : TypeSpec} (h : Written n cs t)
    (hs : Stops rest) : read n (cs ++ rest) = .ok (t, rest) := by
  have hbracket : ∀ r, rest ≠ '[' :: r := fun r hr => (hs _ _ hr).2.1 rfl
  cases h with
  | @named _ name ds sizes identifier dims =>
    have hsplit := Identifier.split?_of_isValid identifier
      (fun c r hc => (dims.append_cons_cases hs hc).1)
    rw [List.append_assoc,
      read_of_tupleBody?_eq_none (tupleBody?_named identifier dims hs) hsplit,
      dims.dimensions_append hbracket, ← List.append_assoc]
    simp only [bind, Except.bind, consumed_append]
  | @tuple m word body ds members sizes keyword inside dims =>
    have hcs : word ++ '(' :: body ++ ')' :: ds ++ rest =
        word ++ '(' :: (body ++ ')' :: (ds ++ rest)) := by simp
    have hstem : word ++ '(' :: (body ++ ')' :: (ds ++ rest)) =
        (word ++ '(' :: body ++ [')']) ++ (ds ++ rest) := by simp
    rw [hcs, read_succ_of_tupleBody?_eq_some (tupleBody?_eq_some.mpr ⟨word, keyword, rfl⟩),
      inside.inside_append (fun k hne hk => inside.members_append hne hk), bind_eq_ok]
    refine ⟨(members, ds ++ rest), rfl, ?_⟩
    dsimp only
    rw [dims.dimensions_append hbracket]
    simp only [bind, Except.bind]
    rw [hstem, consumed_append, ← hstem, ← hcs, consumed_append]

theorem Body.members_append {n k : Nat} {body rest : List Char} {ts : List TypeSpec}
    (h : Body n body ts) (hne : ts ≠ []) (hk : ts.length ≤ k) :
    members (read n) k (body ++ ')' :: rest) = .ok (ts, rest) := by
  cases h with
  | empty blanks => exact absurd rfl hne
  | last leading member trailing =>
    obtain ⟨k, rfl⟩ : ∃ j, k = j + 1 := ⟨k - 1, by simp only [List.length_cons] at hk; omega⟩
    rw [members_succ leading member trailing (.inr rfl)
      (member.read_append ((Stops.cons (.inr rfl) rest).blank_append trailing))]
    rfl
  | @cons _ before cs after body t t' ts leading member trailing others =>
    obtain ⟨k, rfl⟩ : ∃ j, k = j + 1 := ⟨k - 1, by simp only [List.length_cons] at hk; omega⟩
    have hothers : members (read n) k (body ++ ')' :: rest) = .ok (t' :: ts, rest) := by
      apply others.members_append (by simp)
      simp only [List.length_cons] at hk ⊢
      omega
    rw [List.append_assoc, List.cons_append, members_succ leading member trailing (.inl rfl)
      (member.read_append ((Stops.cons (.inl rfl) _).blank_append trailing)), hothers]
    rfl

end

theorem Written.unique {n : Nat} {cs : List Char} {t t' : TypeSpec} (h : Written n cs t)
    (h' : Written n cs t') : t = t' := by
  have hread := (h.read_append Stops.nil).symm.trans (h'.read_append Stops.nil)
  cases hread
  rfl

/-- The parenthesis that closes a body is the same however the text goes on. -/
theorem Body.append_inj {n : Nat} {body body' rest rest' : List Char} {ts ts' : List TypeSpec}
    (h : Body n body ts) (h' : Body n body' ts')
    (heq : body ++ ')' :: rest = body' ++ ')' :: rest') : ts = ts' ∧ rest = rest' := by
  have hin : inside (read n) (body ++ ')' :: rest) = .ok (ts, rest) :=
    h.inside_append fun _ hne hk => h.members_append hne hk
  have hin' : inside (read n) (body' ++ ')' :: rest') = .ok (ts', rest') :=
    h'.inside_append fun _ hne hk => h'.members_append hne hk
  rw [heq, hin'] at hin
  cases hin
  exact ⟨rfl, rfl⟩

theorem whole_eq_ok {cs : List Char} {t : TypeSpec} :
    whole cs = .ok t ↔ Written maxNesting cs t := by
  constructor
  · intro h
    unfold whole at h
    split at h
    · cases h
    · obtain ⟨⟨t', rest⟩, hread, hrest⟩ := bind_eq_ok.mp h
      obtain ⟨text, hcs, hw⟩ := read_sound hread
      cases rest with
      | nil =>
        cases hrest
        rwa [hcs, List.append_nil]
      | cons c r => cases hrest
  · intro h
    obtain ⟨c, r, rfl, -⟩ := h.exists_cons
    have hread := h.read_append Stops.nil
    rw [List.append_nil] at hread
    rw [whole, if_neg (by simp), hread]
    rfl

/-- A text is a type exactly when it is derived without the blanks around it. -/
theorem parse_eq_ok {s : String} {t : TypeSpec} :
    parse s = .ok t ↔ Written maxNesting (trim s.toList) t := by
  rw [parse, mapError_eq_ok, whole_eq_ok]

theorem Written.parse_ofList {n : Nat} {cs : List Char} {t : TypeSpec} (h : Written n cs t)
    (hn : n ≤ maxNesting) : parse (.ofList cs) = .ok t := by
  rw [parse_eq_ok, String.toList_ofList, h.trim_eq]
  exact h.mono hn

/-- A type is read again from its span. -/
theorem parse_span {s : String} {t : TypeSpec} (h : parse s = .ok t) : parse t.span = .ok t := by
  have hw := parse_eq_ok.mp h
  rw [hw.span_eq]
  exact hw.parse_ofList (Nat.le_refl maxNesting)

end ContractInterface.TypeSpec
