import FormulaSheet.Data.Raw
/-!
Code points, texts of code points and tables with such keys. A text of characters is what its code
points stand for, and no surrogates are in it. Texts have one order, and entries with distinct keys
are what setting them one after the other gives.
-/

namespace FormulaSheet

/-! Code points. -/

namespace CodePoint

theorem isSurrogate_iff {p : CodePoint} :
    p.isSurrogate = true ↔ 0xD800 ≤ p.val ∧ p.val < 0xE000 := by
  simp only [isSurrogate, isHigh, isLow, Bool.or_eq_true, Bool.and_eq_true, decide_eq_true_eq]
  omega

theorem ofNat_val (p : CodePoint) : ofNat p.val = p := Fin.ofNat_val_eq_self p

theorem val_ofChar (c : Char) : (ofChar c).val = c.toNat := by
  have valid : c.toNat.isValidChar := c.valid
  rw [ofChar, ofNat, Fin.val_ofNat, Nat.mod_eq_of_lt]
  unfold Nat.isValidChar at valid
  omega

theorem isSurrogate_ofChar (c : Char) : (ofChar c).isSurrogate = false := by
  have valid : c.toNat.isValidChar := c.valid
  unfold Nat.isValidChar at valid
  rw [← Bool.not_eq_true, isSurrogate_iff, val_ofChar]
  omega

theorem char_ofChar (c : Char) : (ofChar c).char = c := by
  rw [char, isSurrogate_ofChar, if_neg Bool.false_ne_true, val_ofChar, Char.ofNat_toNat]

theorem toNat_char {p : CodePoint} (h : p.isSurrogate = false) : p.char.toNat = p.val := by
  have valid : p.val.isValidChar := by
    have below := p.isLt
    rw [← Bool.not_eq_true, isSurrogate_iff] at h
    unfold Nat.isValidChar
    omega
  rw [char, h, if_neg Bool.false_ne_true, Char.ofNat, dif_pos valid]
  rfl

theorem ofChar_char {p : CodePoint} (h : p.isSurrogate = false) : ofChar p.char = p :=
  Fin.ext ((val_ofChar _).trans (toNat_char h))

end CodePoint

/-! Texts. -/

namespace RawText

theorem string_ofString (s : String) : (ofString s).string = s := by
  have chars : ∀ c ∈ s.toList, (CodePoint.ofChar c).char = c := fun c _ => CodePoint.char_ofChar c
  rw [string, ofString, List.map_map]
  exact (congrArg String.ofList ((List.map_congr_left chars).trans (List.map_id' _))).trans
    String.ofList_toList

theorem ofString_inj {s t : String} : ofString s = ofString t ↔ s = t := by
  constructor
  · intro same
    rw [← string_ofString s, same, string_ofString]
  · rintro rfl
    rfl

theorem isUnpaired_ofString (s : String) : (ofString s).isUnpaired = true := by
  rw [ofString]
  induction s.toList with
  | nil => rfl
  | cons c rest ih =>
    cases rest with
    | nil => rfl
    | cons d rest =>
      have single := CodePoint.isSurrogate_ofChar c
      rw [CodePoint.isSurrogate, Bool.or_eq_false_iff] at single
      simp only [List.map_cons] at ih ⊢
      rw [isUnpaired, ih, single.1]
      rfl

theorem isBefore_map (cs ds : List Char) :
    isBefore (cs.map .ofChar) (ds.map .ofChar) = true ↔ cs < ds := by
  induction cs generalizing ds with
  | nil => cases ds <;> simp [isBefore]
  | cons c rest ih =>
    cases ds with
    | nil => simp [isBefore]
    | cons d others =>
      have less : c.toNat < d.toNat ↔ c < d := Iff.rfl
      rw [List.map_cons, List.map_cons, isBefore, Bool.or_eq_true, Bool.and_eq_true,
        decide_eq_true_eq, beq_iff_eq, CodePoint.val_ofChar, CodePoint.val_ofChar, ih, less,
        Char.toNat_inj, List.cons_lt_cons_iff]

/-- Characters come in the order of their code points. -/
theorem isBefore_ofString (s t : String) : (ofString s).isBefore (ofString t) = true ↔ s < t :=
  isBefore_map s.toList t.toList

theorem isBefore_total (s t : RawText) : s = t ∨ s.isBefore t = true ∨ t.isBefore s = true := by
  induction s generalizing t with
  | nil => cases t <;> simp [isBefore]
  | cons p s ih =>
    cases t with
    | nil => simp [isBefore]
    | cons q t =>
      simp only [isBefore, Bool.or_eq_true, Bool.and_eq_true, decide_eq_true_eq, beq_iff_eq]
      rcases Nat.lt_trichotomy p.val q.val with below | same | above
      · exact .inr (.inl (.inl below))
      · cases Fin.ext same
        rcases ih t with rfl | before | behind
        · exact .inl rfl
        · exact .inr (.inl (.inr ⟨rfl, before⟩))
        · exact .inr (.inr (.inr ⟨rfl, behind⟩))
      · exact .inr (.inr (.inl above))

theorem isBefore_trans {s t u : RawText} (h : s.isBefore t = true) (h' : t.isBefore u = true) :
    s.isBefore u = true := by
  induction s generalizing t u with
  | nil =>
    cases t with
    | nil => cases h
    | cons q t =>
      cases u with
      | nil => cases h'
      | cons r u => rfl
  | cons p s ih =>
    cases t with
    | nil => cases h
    | cons q t =>
      cases u with
      | nil => cases h'
      | cons r u =>
        simp only [isBefore, Bool.or_eq_true, Bool.and_eq_true, decide_eq_true_eq, beq_iff_eq]
          at h h' ⊢
        rcases h with below | ⟨same, rest⟩
        · left
          omega
        · rcases h' with below' | ⟨same', rest'⟩
          · left
            omega
          · exact .inr ⟨same.trans same', ih rest rest'⟩

theorem isBefore_irrefl (s : RawText) : s.isBefore s = false := by
  induction s with
  | nil => rfl
  | cons p s ih => simp [isBefore, ih]

end RawText

/-! Tables. -/

namespace RawValue

theorem insert_fresh {key : RawText} {value : RawValue} {entries : List (RawText × RawValue)}
    (h : ∀ e ∈ entries, e.1 ≠ key) : insert key value entries = entries ++ [(key, value)] := by
  induction entries with
  | nil => rfl
  | cons e rest ih =>
    rw [insert, if_neg (h e List.mem_cons_self), ih fun e he => h e (List.mem_cons_of_mem _ he)]
    rfl

/-- Setting a key adds no other key. -/
theorem key_of_mem_insert {key : RawText} {value : RawValue} {entries : List (RawText × RawValue)} :
    ∀ e ∈ insert key value entries, e.1 = key ∨ ∃ a ∈ entries, e.1 = a.1 := by
  induction entries with
  | nil =>
    intro e he
    exact .inl (congrArg Prod.fst (List.mem_singleton.mp he))
  | cons a rest ih =>
    intro e he
    rw [insert] at he
    split at he
    · rename_i same
      rcases List.mem_cons.mp he with rfl | he
      · exact .inl same
      · exact .inr ⟨e, List.mem_cons_of_mem _ he, rfl⟩
    · rcases List.mem_cons.mp he with rfl | he
      · exact .inr ⟨_, List.mem_cons_self, rfl⟩
      · refine (ih e he).imp_right ?_
        rintro ⟨b, hb, same⟩
        exact ⟨b, List.mem_cons_of_mem _ hb, same⟩

/-- Entries with distinct keys are what setting them one after the other gives. -/
theorem ofEntries_of_distinct {entries : List (RawText × RawValue)}
    (h : (entries.map (·.1)).Nodup) : ofEntries entries = entries := by
  have built : ∀ made, ((made ++ entries).map (·.1)).Nodup →
      entries.foldl (fun table e => insert e.1 e.2 table) made = made ++ entries := by
    intro made distinct
    clear h
    induction entries generalizing made with
    | nil => rw [List.foldl_nil, List.append_nil]
    | cons e rest ih =>
      have fresh : ∀ a ∈ made, a.1 ≠ e.1 := by
        intro a ha
        rw [List.map_append, List.map_cons] at distinct
        exact (List.nodup_append.mp distinct).2.2 a.1 (List.mem_map_of_mem ha) e.1
          List.mem_cons_self
      rw [List.foldl_cons, insert_fresh fresh, ih]
      · rw [List.append_assoc, List.singleton_append]
      · rwa [List.append_assoc, List.singleton_append]
  exact built [] h

end RawValue

end FormulaSheet
