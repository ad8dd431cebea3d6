import FormulaSheet.Proofs.Text.Characters
import FormulaSheet.Text.Utf8
/-!
Bytes, characters and lines on either side of a line feed. No character of several bytes reaches
across a line feed, whatever the bytes are, and no line does, so what stands behind one is read as
if it stood alone. ASCII reads as what was written.
-/

namespace FormulaSheet.Text

/-! Bytes. -/

theorem low_of_utf8Lead? {b : Nat} {lead : Utf8Lead} (h : utf8Lead? b = some lead) :
    0x80 ≤ lead.low := by
  unfold utf8Lead? at h
  repeat' split at h
  all_goals first | contradiction | (cases h; dsimp only; omega)

/-- The rest of a sequence ends before an ASCII character. -/
theorem utf8Tail_append (count high bits : Nat) {low : Nat} (continues : 0x80 ≤ low)
    (bytes : List UInt8) {b : UInt8} (ascii : b.toNat < 0x80) (rest : List UInt8) :
    utf8Tail count low high bits (bytes ++ b :: rest) =
      ((utf8Tail count low high bits bytes).1,
        (utf8Tail count low high bits bytes).2 ++ b :: rest) := by
  induction count generalizing low high bits bytes with
  | zero => simp only [utf8Tail]
  | succ count ih =>
    cases bytes with
    | nil =>
      have outside : ¬ (low ≤ b.toNat ∧ b.toNat ≤ high) := by omega
      simp only [List.nil_append, utf8Tail, if_neg outside]
    | cons c tail =>
      simp only [List.cons_append, utf8Tail]
      by_cases inside : low ≤ c.toNat ∧ c.toNat ≤ high
      · simp only [if_pos inside]
        exact ih _ _ (Nat.le_refl _) tail
      · simp only [if_neg inside, List.cons_append]

/-- What stands in front of an ASCII character is decoded as if nothing came behind. -/
theorem decodeUtf8_append (bytes : List UInt8) {b : UInt8} (ascii : b.toNat < 0x80)
    (rest : List UInt8) :
    decodeUtf8 (bytes ++ b :: rest) = decodeUtf8 bytes ++ decodeUtf8 (b :: rest) := by
  fun_induction decodeUtf8 bytes with
  | case1 => rfl
  | case2 c tail single ih =>
    rw [List.cons_append, decodeUtf8, if_pos single, ih]
    rfl
  | case3 c tail multiple lead ih =>
    rw [List.cons_append, decodeUtf8, if_neg multiple, lead]
    simp only [ih, List.cons_append]
  | case4 c tail multiple lead found rest' ih =>
    have continues := low_of_utf8Lead? found
    rw [List.cons_append, decodeUtf8, if_neg multiple, found]
    simp only [utf8Tail_append lead.count lead.high lead.bits continues tail ascii rest]
    rw [ih]
    rfl

theorem decodeUtf8_nil : decodeUtf8 [] = [] := by
  rw [decodeUtf8]

theorem encodeUtf8_ascii {cs : List Char} (h : ∀ c ∈ cs, c.toNat < 0x80) :
    encodeUtf8 (String.ofList cs) = cs.map fun c => c.toNat.toUInt8 := by
  have bytes : encodeUtf8 (String.ofList cs) = cs.flatMap String.utf8EncodeChar := by
    change (String.ofList cs).toByteArray.data.toList = _
    rw [String.toByteArray_ofList]
    simp [List.utf8Encode]
  rw [bytes]
  clear bytes
  induction cs with
  | nil => rfl
  | cons c rest ih =>
    have single : String.utf8EncodeChar c = [c.toNat.toUInt8] :=
      if_pos (Nat.le_of_lt_succ (h c List.mem_cons_self))
    rw [List.flatMap_cons, single, ih fun d hd => h d (List.mem_cons_of_mem _ hd)]
    rfl

theorem decodeUtf8_ascii {cs : List Char} (h : ∀ c ∈ cs, c.toNat < 0x80) (rest : List UInt8) :
    decodeUtf8 (encodeUtf8 (String.ofList cs) ++ rest) = cs ++ decodeUtf8 rest := by
  rw [encodeUtf8_ascii h]
  induction cs with
  | nil => rfl
  | cons c tail ih =>
    have small := h c List.mem_cons_self
    have byte : (c.toNat.toUInt8).toNat = c.toNat := by
      simp
      omega
    rw [List.map_cons, List.cons_append, decodeUtf8, byte, if_pos small, Char.ofNat_toNat,
      ih fun d hd => h d (List.mem_cons_of_mem _ hd)]
    rfl

theorem decodeUtf8_ascii_behind (bytes : List UInt8) {cs : List Char}
    (h : ∀ c ∈ cs, c.toNat < 0x80) :
    decodeUtf8 (bytes ++ encodeUtf8 (String.ofList cs)) = decodeUtf8 bytes ++ cs := by
  have alone := decodeUtf8_ascii h []
  rw [List.append_nil, decodeUtf8_nil, List.append_nil] at alone
  cases cs with
  | nil => rw [encodeUtf8_ascii h, List.map_nil, List.append_nil, List.append_nil]
  | cons c tail =>
    have small := h c List.mem_cons_self
    have byte : (c.toNat.toUInt8).toNat < 0x80 := by
      simp
      omega
    rw [encodeUtf8_ascii h, List.map_cons] at alone ⊢
    rw [decodeUtf8_append bytes byte, alone]

theorem utf8Error?_ascii {bytes : List UInt8} (h : ∀ b ∈ bytes, b.toNat < 0x80) (position : Nat) :
    utf8Error? position bytes = none := by
  induction bytes generalizing position with
  | nil => rw [utf8Error?]
  | cons b rest ih =>
    rw [utf8Error?, if_pos (h b List.mem_cons_self)]
    exact ih (fun d hd => h d (List.mem_cons_of_mem _ hd)) _

theorem readUtf8_ascii {cs : List Char} (h : ∀ c ∈ cs, c.toNat < 0x80) :
    readUtf8 (encodeUtf8 (String.ofList cs)) = .ok cs := by
  have small : ∀ b ∈ encodeUtf8 (String.ofList cs), b.toNat < 0x80 := by
    rw [encodeUtf8_ascii h]
    intro b hb
    obtain ⟨c, hc, rfl⟩ := List.mem_map.mp hb
    have := h c hc
    simp
    omega
  have decoded := decodeUtf8_ascii h []
  rw [List.append_nil, decodeUtf8_nil, List.append_nil] at decoded
  rw [readUtf8, utf8Error?_ascii small, decoded]

/-! Lines. -/

theorem lines_go_cons {c : Char} {cs : List Char} (h : c = '\r' → cs.head? ≠ some '\n')
    (line : List Char) : lines.go line (c :: cs) =
      if isLineEnd c then line.reverse :: lines.go [] cs else lines.go (c :: line) cs := by
  rw [lines.go]
  rintro rest rfl rfl
  exact h rfl rfl

/-- A line boundary ends a line, by itself or together with a carriage return in front of it. -/
theorem lines_go_append (line cs : List Char) {c : Char} (ends : isLineEnd c = true)
    {rest : List Char} (apart : c = '\r' → rest.head? ≠ some '\n') :
    lines.go line (cs ++ c :: rest) = lines.go line (cs ++ [c]) ++ lines.go [] rest := by
  induction h : cs.length using Nat.strongRecOn generalizing line cs with
  | ind n ih =>
    subst h
    cases cs with
    | nil =>
      have alone : c = '\r' → ([] : List Char).head? ≠ some '\n' := by simp
      rw [List.nil_append, List.nil_append, lines_go_cons apart, lines_go_cons alone, if_pos ends,
        if_pos ends]
      rfl
    | cons d tail =>
      have next : ∀ behind, (tail ++ c :: behind).head? = (tail ++ [c]).head? := by
        intro behind
        cases tail <;> rfl
      by_cases joined : d = '\r' ∧ (tail ++ [c]).head? = some '\n'
      · obtain ⟨rfl, feed⟩ := joined
        cases tail with
        | nil =>
          cases feed
          simp [lines.go]
        | cons d more =>
          cases feed
          have shorter : more.length < ('\r' :: '\n' :: more).length := by
            simp only [List.length_cons]
            omega
          simp [lines.go, ih more.length shorter [] more rfl]
      · have inside : ∀ behind, d = '\r' → (tail ++ c :: behind).head? ≠ some '\n' :=
          fun behind carriage feed => joined ⟨carriage, next behind ▸ feed⟩
        have shorter : tail.length < (d :: tail).length := Nat.lt_succ_self _
        rw [List.cons_append, List.cons_append, lines_go_cons (inside rest),
          lines_go_cons (inside [])]
        split
        · rw [ih tail.length shorter [] tail rfl, List.cons_append]
        · rw [ih tail.length shorter (d :: line) tail rfl]

/-- Lines behind a line boundary are lines of their own. -/
theorem lines_append {front rest : List Char} (ended : ∀ c ∈ front.getLast?, isLineEnd c = true)
    (apart : rest.head? ≠ some '\n') : lines (front ++ rest) = lines front ++ lines rest := by
  cases last : front.getLast? with
  | none =>
    rw [List.getLast?_eq_none_iff.mp last]
    rfl
  | some c =>
    obtain ⟨cs, rfl⟩ := List.getLast?_eq_some_iff.mp last
    rw [List.append_assoc, List.singleton_append]
    exact lines_go_append [] cs (ended c last) fun _ => apart

theorem lines_feed (cs rest : List Char) :
    lines (cs ++ '\n' :: rest) = lines (cs ++ ['\n']) ++ lines rest :=
  lines_go_append [] cs (by decide) (by simp)

/-- Characters that end no line are collected. -/
theorem lines_go_plain {cs : List Char} (h : ∀ c ∈ cs, isLineEnd c = false)
    (line rest : List Char) : lines.go line (cs ++ rest) = lines.go (cs.reverse ++ line) rest := by
  induction cs generalizing line with
  | nil => rfl
  | cons c tail ih =>
    have inside := h c List.mem_cons_self
    have apart : c = '\r' → (tail ++ rest).head? ≠ some '\n' := by
      rintro rfl
      exact absurd inside (by decide)
    rw [List.cons_append, lines_go_cons apart, inside, if_neg (by decide),
      ih fun d hd => h d (List.mem_cons_of_mem _ hd)]
    simp

/-- A text without line boundaries, with a line feed behind it, is one line. -/
theorem lines_of_plain {cs : List Char} (h : ∀ c ∈ cs, isLineEnd c = false) :
    lines (cs ++ ['\n']) = [cs] := by
  have ends : isLineEnd '\n' = true := by decide
  rw [lines, lines_go_plain h]
  simp [lines.go, ends]

theorem lines_of_unended {cs : List Char} (h : ∀ c ∈ cs, isLineEnd c = false) :
    ∀ line ∈ lines cs, line = cs := by
  have collected := lines_go_plain h [] []
  intro line hl
  rw [lines, ← List.append_nil cs, collected, List.append_nil, lines.go] at hl
  split at hl
  · cases hl
  · simpa using hl

end FormulaSheet.Text
