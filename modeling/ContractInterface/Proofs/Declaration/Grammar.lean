import ContractInterface.Item.Basic
import ContractInterface.Proofs.Declaration.Canonical
import ContractInterface.Proofs.Param.Annotation
import ContractInterface.Proofs.TopLevel.Pieces

/-! The grammar of declarations. A declaration is a name and one or two lists in parentheses, a
list is cut at its outermost commas, and each piece writes a parameter. -/
namespace ContractInterface.Declaration
open Text TypeSpec Param Sequencing

/-- A piece of a list: a type without blanks, and behind blanks a name, which may be left out
where it is not required. -/
inductive Piece (requireName : Bool) : List Char → List Char → List Char → Prop
  | unnamed {before ty after : List Char} (optional : requireName = false)
      (leading : AllBlank before) (noBlank : NoBlank ty) (trailing : AllBlank after) :
      Piece requireName (before ++ ty ++ after) ty []
  | named {before ty gap name : List Char} (leading : AllBlank before) (noBlank : NoBlank ty)
      (nonempty : gap ≠ []) (blanks : AllBlank gap) (identifier : Identifier.isValid name = true) :
      Piece requireName (before ++ ty ++ gap ++ name) ty name

/-- A parameter that a piece writes. It is what its type gives, annotated with the texts of the
types in it. -/
def Parameter (requireName : Bool) (piece : List Char) (p : Param) : Prop :=
  ∃ ty name t, Piece requireName piece ty name ∧ TypeSpec.parse (.ofList ty) = .ok t ∧
    Param.parse (.ofList ty) (.ofList name) = .ok p.bare ∧ Annotated t p

/-- What stands between the parentheses of a list. -/
structure ListBody (requireNames : Bool) (body : List Char) (ps : List Param) : Prop where
  balanced : TopLevel.Closed ',' true body
  exists_pieces : ∃ pieces, TopLevel.Pieces ',' body pieces ∧
    List.Forall₂ (Parameter requireNames) pieces ps

/-- The first word of a text, the blanks around it, and what follows from the next word on. -/
theorem exists_append_of_words {cs ty name : List Char} (h : words cs = (ty, name)) :
    ∃ before gap, AllBlank before ∧ NoBlank ty ∧ AllBlank gap ∧
      cs = before ++ ty ++ gap ++ name ∧ (gap = [] → name = []) := by
  obtain ⟨before, hbefore, hcs⟩ := exists_append_dropBlank cs
  obtain ⟨gap, hgap, hrest⟩ := exists_append_dropBlank ((dropBlank cs).dropWhile (!isBlank ·))
  have hsplit := List.takeWhile_append_dropWhile (p := (!isBlank ·)) (l := dropBlank cs)
  obtain ⟨rfl, rfl⟩ := Prod.mk.inj h
  refine ⟨before, gap, hbefore, ?_, hgap, ?_, ?_⟩
  · intro c hc
    simpa using List.all_eq_true.mp List.all_takeWhile c hc
  · rw [List.append_assoc, ← hrest, List.append_assoc, hsplit]
    exact hcs
  · -- what follows the word begins with a blank, so that it has none only if it is empty
    rintro rfl
    have hhead := List.head?_dropWhile_not (!isBlank ·) (dropBlank cs)
    rw [List.nil_append] at hrest
    rw [hrest] at hhead
    cases hname : dropBlank ((dropBlank cs).dropWhile (!isBlank ·)) with
    | nil => rfl
    | cons c r =>
      rw [hname] at hhead
      simp [isBlank_of_dropBlank hname] at hhead

theorem words_append_of_gap {before ty gap : List Char} (name : List Char)
    (hbefore : AllBlank before) (hty : NoBlank ty) (hne : ty ≠ []) (hgap : AllBlank gap)
    (hname : gap = [] → name = []) :
    words (before ++ ty ++ gap ++ name) = (ty, dropBlank name) := by
  have hwords : words (ty ++ (gap ++ name)) = (ty, dropBlank (gap ++ name)) := by
    apply words_append hty hne
    intro c r hc
    cases gap with
    | nil => rw [hname rfl] at hc; cases hc
    | cons b gap =>
      cases hc
      exact hgap c (by simp)
  rw [dropBlank_append hgap] at hwords
  rw [List.append_assoc, List.append_assoc, words, dropBlank_append hbefore]
  exact hwords

/-- A text is parted into words exactly if it is a piece, where the second word has to be a name. -/
theorem piece_iff_words {piece ty name : List Char} {requireName : Bool} (hne : ty ≠ []) :
    Piece requireName piece ty name ↔ words piece = (ty, name) ∧
      (requireName = false ∧ name = [] ∨ Identifier.isValid name = true) := by
  constructor
  · intro h
    cases h with
    | @unnamed before _ after optional leading noBlank trailing =>
      have hwords := words_append_of_gap [] leading noBlank hne trailing fun _ => rfl
      rw [List.append_nil] at hwords
      exact ⟨hwords, .inl ⟨optional, rfl⟩⟩
    | named leading noBlank nonempty blanks identifier =>
      have hwords := words_append_of_gap name leading noBlank hne blanks fun h => absurd h nonempty
      obtain ⟨c, r, rfl, hc⟩ := Identifier.exists_cons identifier
      have hblank := Identifier.isBlank_of_isPart (Identifier.isPart_of_isStart hc)
      rw [dropBlank_cons hblank] at hwords
      exact ⟨hwords, .inr identifier⟩
  · rintro ⟨hwords, hname⟩
    obtain ⟨before, gap, hbefore, hty, hgap, rfl, hempty⟩ := exists_append_of_words hwords
    rcases hname with ⟨optional, rfl⟩ | identifier
    · rw [List.append_nil]
      exact .unnamed optional hbefore hty hgap
    · refine .named hbefore hty (fun h => ?_) hgap identifier
      rw [hempty h] at identifier
      cases identifier

/-- A text is read as a parameter exactly if it is a piece that writes it. -/
theorem parseParam_eq_ok_iff_parameter {piece : List Char} {requireName : Bool} {p : Param} :
    parseParam (.ofList piece) requireName = .ok p ↔ Parameter requireName piece p := by
  have hne {ty : List Char} {t : TypeSpec} (ht : TypeSpec.parse (.ofList ty) = .ok t) :
      ty ≠ [] := by
    rintro rfl
    cases ht
  have hown {ty name : List Char} {t : TypeSpec} (h : Piece requireName piece ty name)
      (ht : TypeSpec.parse (.ofList ty) = .ok t) (s : String) :
      ofTypeSpec (fun t => some (InternalType.parse t.span)) s t = ofTypeSpec ownText s t := by
    have hty : NoBlank ty := by cases h <;> assumption
    have hw := TypeSpec.parse_eq_ok.mp ht
    rw [String.toList_ofList, hty.trim_eq] at hw
    exact hw.ofTypeSpec_eq hty s
  have hbare {ty : List Char} {t : TypeSpec} (ht : TypeSpec.parse (.ofList ty) = .ok t)
      (s : String) : Param.parse (.ofList ty) s = .ok p.bare ↔
        p.bare = ofTypeSpec (fun _ => none) s t := by
    rw [Param.parse, ht]
    exact ⟨fun h => (Except.ok.inj h).symm, fun h => congrArg Except.ok h.symm⟩
  rw [parseParam_eq_ok, String.toList_ofList]
  constructor
  · rintro ⟨ty, name, t, hwords, ht, hname, hp⟩
    have hpiece := (piece_iff_words (hne ht)).mpr ⟨hwords, hname⟩
    rw [hown hpiece ht] at hp
    obtain ⟨hb, hannotated⟩ := eq_ofTypeSpec_ownText_iff.mp hp
    exact ⟨ty, name, t, hpiece, ht, (hbare ht _).mpr hb, hannotated⟩
  · rintro ⟨ty, name, t, hpiece, ht, hb, hannotated⟩
    obtain ⟨hwords, hname⟩ := (piece_iff_words (hne ht)).mp hpiece
    refine ⟨ty, name, t, hwords, ht, hname, ?_⟩
    rw [hown hpiece ht]
    exact hannotated.eq_ofTypeSpec ((hbare ht _).mp hb)

theorem readParams_eq_ok_iff_listBody {text : String} {requireNames : Bool} {cs rest : List Char}
    {ps : List Param} :
    readParams text requireNames cs = .ok (ps, rest) ↔
      ∃ body, cs = body ++ ')' :: rest ∧ ListBody requireNames body ps := by
  rw [readParams_eq_ok]
  simp only [TopLevel.cut_eq_ok (d := ',') (by decide) (by decide) (by decide),
    parseParam_eq_ok_iff_parameter]
  constructor
  · rintro ⟨pieces, ⟨body, rfl, hpieces⟩, hparams⟩
    have hclosed := (TopLevel.exists_pieces_iff (by decide) (by decide) (by decide)).mp
      ⟨pieces, hpieces⟩
    exact ⟨body, rfl, hclosed, pieces, hpieces, hparams⟩
  · rintro ⟨body, rfl, -, pieces, hpieces, hparams⟩
    exact ⟨pieces, ⟨body, rfl, hpieces⟩, hparams⟩

theorem parse_eq_ok_iff_listBody {text : String} {requireNames allowOutputs : Bool}
    {d : Declaration} :
    parse text requireNames allowOutputs = .ok d ↔ Identifier.isValid d.name.toList = true ∧
      ∃ body, ListBody requireNames body d.inputs ∧
        (trim text.toList = d.name.toList ++ '(' :: body ++ [')'] ∧ d.outputs = none ∨
          allowOutputs = true ∧ ∃ body' outputs, ListBody requireNames body' outputs ∧
            trim text.toList = d.name.toList ++ '(' :: body ++ ')' :: '(' :: body' ++ [')'] ∧
            d.outputs = some outputs) := by
  rw [parse_eq_ok]
  obtain ⟨name, inputs, outputs⟩ := d
  simp only [readParams_eq_ok_iff_listBody]
  constructor
  · rintro ⟨text, rest, htext, hname, ⟨body, rfl, hbody⟩, houtputs⟩
    refine ⟨hname, body, hbody, ?_⟩
    cases houtputs with
    | absent => exact .inl ⟨by rw [htext]; simp, rfl⟩
    | listed allowed params =>
      obtain ⟨body', rfl, hbody'⟩ := readParams_eq_ok_iff_listBody.mp params
      exact .inr ⟨allowed, body', _, hbody', by rw [htext]; simp, rfl⟩
  · rintro ⟨hname, body, hbody, ⟨htext, rfl⟩ | ⟨allowed, body', ps, hbody', htext, rfl⟩⟩
    · exact ⟨body ++ [')'], [], by rw [htext]; simp, hname, ⟨body, rfl, hbody⟩, .absent⟩
    · refine ⟨body ++ ')' :: '(' :: (body' ++ [')']), '(' :: (body' ++ [')']), by rw [htext]; simp,
        hname, ⟨body, rfl, hbody⟩, .listed allowed ?_⟩
      exact readParams_eq_ok_iff_listBody.mpr ⟨body', rfl, hbody'⟩

/-- A function is read from exactly the texts that are, without the blanks around them, its name
and its parameters in parentheses, with or without its outputs in further parentheses. An error
is read from those that have one list, in which every parameter is named. The parameters are
those of the pieces between the outermost commas, which a list in matching parentheses always
has and has in one way only. -/
theorem parse_eq_ok_iff_grammar :
    (∀ (s : String) (f : FunctionItem), FunctionItem.parse s = .ok f ↔
      Identifier.isValid f.name.toList = true ∧ f.mutability = .nonpayable ∧
      ∃ body, ListBody false body f.inputs ∧
        (trim s.toList = f.name.toList ++ '(' :: body ++ [')'] ∧ f.outputs = [] ∨
          ∃ body', ListBody false body' f.outputs ∧
            trim s.toList = f.name.toList ++ '(' :: body ++ ')' :: '(' :: body' ++ [')'])) ∧
    (∀ (s : String) (e : ErrorItem), ErrorItem.parse s = .ok e ↔
      Identifier.isValid e.name.toList = true ∧ ∃ body, ListBody true body e.inputs ∧
        trim s.toList = e.name.toList ++ '(' :: body ++ [')']) ∧
    ∀ body, TopLevel.Closed ',' true body → ∃! pieces, TopLevel.Pieces ',' body pieces := by
  refine ⟨fun s f => ?_, fun s e => ?_, fun body h => ?_⟩
  · obtain ⟨name, inputs, outputs, mutability⟩ := f
    rw [FunctionItem.parse, map_eq_ok]
    constructor
    · rintro ⟨d, hd, heq⟩
      cases heq
      obtain ⟨hname, body, hbody, h⟩ := parse_eq_ok_iff_listBody.mp hd
      refine ⟨hname, rfl, body, hbody, ?_⟩
      rcases h with ⟨htext, hnone⟩ | ⟨-, body', ps, hbody', htext, hsome⟩
      · exact .inl ⟨htext, by rw [hnone]; rfl⟩
      · exact .inr ⟨body', by rwa [hsome], htext⟩
    · rintro ⟨hname, rfl, body, hbody, ⟨htext, rfl⟩ | ⟨body', hbody', htext⟩⟩
      · exact ⟨⟨name, inputs, none⟩, parse_eq_ok_iff_listBody.mpr
          ⟨hname, body, hbody, .inl ⟨htext, rfl⟩⟩, rfl⟩
      · exact ⟨⟨name, inputs, some outputs⟩, parse_eq_ok_iff_listBody.mpr
          ⟨hname, body, hbody, .inr ⟨rfl, body', outputs, hbody', htext, rfl⟩⟩, rfl⟩
  · obtain ⟨name, inputs⟩ := e
    rw [ErrorItem.parse, map_eq_ok]
    constructor
    · rintro ⟨d, hd, heq⟩
      cases heq
      obtain ⟨hname, body, hbody, ⟨htext, -⟩ | ⟨hallowed, -⟩⟩ := parse_eq_ok_iff_listBody.mp hd
      · exact ⟨hname, body, hbody, htext⟩
      · cases hallowed
    · rintro ⟨hname, body, hbody, htext⟩
      exact ⟨⟨name, inputs, none⟩, parse_eq_ok_iff_listBody.mpr
        ⟨hname, body, hbody, .inl ⟨htext, rfl⟩⟩, rfl⟩
  · obtain ⟨pieces, hpieces⟩ :=
      (TopLevel.exists_pieces_iff (by decide) (by decide) (by decide)).mpr h
    refine ⟨pieces, hpieces, fun pieces' hpieces' => ?_⟩
    exact hpieces'.unique (by decide) (by decide) (by decide) hpieces

end ContractInterface.Declaration
