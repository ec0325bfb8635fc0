import ContractInterface.Text.Blank

/-! Blanks in front of a text and behind it. -/
namespace ContractInterface.Text

def AllBlank (cs : List Char) : Prop := ∀ c ∈ cs, isBlank c = true

theorem AllBlank.nil : AllBlank [] := by simp [AllBlank]

theorem AllBlank.of_all {cs : List Char} (h : cs.all isBlank = true) : AllBlank cs :=
  List.all_eq_true.mp h

theorem AllBlank.append {cs ds : List Char} (hc : AllBlank cs) (hd : AllBlank ds) :
    AllBlank (cs ++ ds) := by
  intro c h
  exact (List.mem_append.mp h).elim (hc c) (hd c)

def NoBlank (cs : List Char) : Prop := ∀ c ∈ cs, isBlank c = false

theorem NoBlank.nil : NoBlank [] := by simp [NoBlank]

theorem NoBlank.of_all {cs : List Char} (h : cs.all (!isBlank ·) = true) : NoBlank cs := by
  intro c hc
  simpa using List.all_eq_true.mp h c hc

theorem NoBlank.cons {c : Char} {cs : List Char} (hc : isBlank c = false) (hcs : NoBlank cs) :
    NoBlank (c :: cs) := by
  intro d h
  rcases List.mem_cons.mp h with rfl | h
  · exact hc
  · exact hcs d h

theorem NoBlank.append {cs ds : List Char} (hc : NoBlank cs) (hd : NoBlank ds) :
    NoBlank (cs ++ ds) := by
  intro c h
  exact (List.mem_append.mp h).elim (hc c) (hd c)

/-- Of blanks alone there are none in a text without blanks. -/
theorem NoBlank.eq_nil {cs blank : List Char} (h : NoBlank cs) (hb : AllBlank blank)
    (hsub : blank ⊆ cs) : blank = [] := by
  rw [List.eq_nil_iff_forall_not_mem]
  intro c hc
  have hno := h c (hsub hc)
  rw [hb c hc] at hno
  cases hno

/-- Texts without blanks have none between them either if what parts them has none. -/
theorem NoBlank.intercalate {sep : List Char} {texts : List (List Char)} (hsep : NoBlank sep)
    (h : ∀ cs ∈ texts, NoBlank cs) : NoBlank (sep.intercalate texts) := by
  induction texts with
  | nil => exact .nil
  | cons cs texts ih =>
    have hcs := h cs (by simp)
    have htexts := ih fun ds hds => h ds (by simp [hds])
    cases texts with
    | nil => rwa [List.intercalate_singleton]
    | cons ds texts =>
      rw [List.intercalate_cons_cons]
      exact (hcs.append hsep).append htexts

/-- A run ends at the same place however the text is cut. -/
theorem append_inj_of_run {p : Char → Bool} {cs cs' ds ds' : List Char}
    (hc : ∀ c ∈ cs, p c = true) (hc' : ∀ c ∈ cs', p c = true) (hd : ds.dropWhile p = ds)
    (hd' : ds'.dropWhile p = ds') (h : cs ++ ds = cs' ++ ds') : cs = cs' ∧ ds = ds' := by
  have hdrop := congrArg (List.dropWhile p) h
  rw [List.dropWhile_append_of_pos hc, List.dropWhile_append_of_pos hc', hd, hd'] at hdrop
  rw [hdrop] at h
  exact ⟨List.append_cancel_right h, hdrop⟩

theorem dropBlank_append {blank : List Char} (h : AllBlank blank) (cs : List Char) :
    dropBlank (blank ++ cs) = dropBlank cs := List.dropWhile_append_of_pos h

theorem dropBlank_cons {c : Char} (h : isBlank c = false) (cs : List Char) :
    dropBlank (c :: cs) = c :: cs := by simp [dropBlank, h]

/-- A text is its leading blanks and what is left without them. -/
theorem exists_append_dropBlank (cs : List Char) :
    ∃ blank, AllBlank blank ∧ cs = blank ++ dropBlank cs := by
  refine ⟨cs.takeWhile isBlank, ?_, ?_⟩
  · intro c hc
    exact List.all_eq_true.mp (List.all_takeWhile) c hc
  · exact List.takeWhile_append_dropWhile.symm

theorem dropBlank_eq_nil_iff {cs : List Char} : dropBlank cs = [] ↔ AllBlank cs := by
  constructor
  · intro h
    obtain ⟨blank, hb, hcs⟩ := exists_append_dropBlank cs
    rwa [hcs, h, List.append_nil]
  · intro h
    rw [← List.append_nil cs, dropBlank_append h, dropBlank_nil]

theorem isBlank_of_dropBlank {cs r : List Char} {c : Char} (h : dropBlank cs = c :: r) :
    isBlank c = false := by
  have := List.head?_dropWhile_not isBlank cs
  rw [dropBlank] at h
  simpa [h] using this

theorem dropBlank_dropBlank (cs : List Char) : dropBlank (dropBlank cs) = dropBlank cs := by
  cases h : dropBlank cs with
  | nil => rfl
  | cons c r => exact dropBlank_cons (isBlank_of_dropBlank h) r

theorem AllBlank.dropBlank_append {blank : List Char} (h : AllBlank blank) (cs : List Char) :
    dropBlank (cs ++ blank) = if dropBlank cs = [] then [] else dropBlank cs ++ blank := by
  split
  · next hcs => exact dropBlank_eq_nil_iff.mpr ((dropBlank_eq_nil_iff.mp hcs).append h)
  · next hcs =>
    rw [dropBlank, List.dropWhile_append, if_neg (by simpa [dropBlank] using hcs)]
    rfl

theorem dropBlank_append_cons {c : Char} (hc : isBlank c = false) (cs ds : List Char) :
    dropBlank (cs ++ c :: ds) = dropBlank cs ++ c :: ds := by
  rw [dropBlank, dropBlank, List.dropWhile_append]
  split
  · next h =>
    rw [List.isEmpty_iff.mp h]
    exact dropBlank_cons hc ds
  · rfl

/-- Between two characters that are not blank nothing is trimmed. -/
theorem trim_append_cons {c d : Char} (hc : isBlank c = false) (hd : isBlank d = false)
    (cs mid ds : List Char) :
    trim (cs ++ c :: mid ++ d :: ds) = dropBlank cs ++ c :: mid ++ d :: dropBlankEnd ds := by
  have hreverse : (dropBlank cs ++ c :: mid ++ d :: ds).reverse =
      ds.reverse ++ d :: (dropBlank cs ++ c :: mid).reverse := by simp
  have hend := dropBlank_append_cons hd ds.reverse (dropBlank cs ++ c :: mid).reverse
  rw [dropBlank] at hend
  rw [trim, List.append_assoc, List.cons_append, dropBlank_append_cons hc, ← List.cons_append,
    ← List.append_assoc, dropBlankEnd, hreverse, hend, dropBlankEnd]
  simp [dropBlank]

/-- A text that neither begins nor ends with a blank has none around it. -/
theorem trim_eq_self {c d : Char} {r s : List Char} (hc : isBlank c = false)
    (hd : isBlank d = false) (h : c :: r = s ++ [d]) : trim (c :: r) = c :: r := by
  rw [trim, dropBlank_cons hc, dropBlankEnd, h, List.reverse_append, List.reverse_singleton,
    List.singleton_append, List.dropWhile_cons_of_neg (by simp [hd])]
  simp

theorem NoBlank.dropWhile_eq {cs : List Char} (h : NoBlank cs) : cs.dropWhile isBlank = cs := by
  cases cs with
  | nil => rfl
  | cons c r => exact dropBlank_cons (h c (by simp)) r

theorem NoBlank.trim_eq {cs : List Char} (h : NoBlank cs) : trim cs = cs := by
  have hreverse : NoBlank cs.reverse := fun c hc => h c (List.mem_reverse.mp hc)
  rw [trim, dropBlank, h.dropWhile_eq, dropBlankEnd, hreverse.dropWhile_eq, List.reverse_reverse]

end ContractInterface.Text
