import FormulaSheet.Proofs.Journal.Queries
/-!
Windows of different sizes. A log whose last line is finished is cut in front of a line, whatever
the window is, so of two windows the larger one shows what the smaller one shows and whole lines in
front of it, and the records obtained through the smaller one are the last of those obtained through
the larger one. Records are compared with characters in place of code points, which are replacement
characters for units of surrogate pairs that stand alone.
-/

namespace FormulaSheet.EventLog

/-! What a reader obtains before it filters. -/

/-- The records within the window, oldest first. -/
def obtained (log : EventLog) (fs : Files) : Except ReadError (List Value) :=
  match fs.find? log.path with
  | none => .ok []
  | some _ =>
    match fs.read log.path with
    | .error e => .error (.file e)
    | .ok bytes => if canSeek log.window bytes then .ok (log.recorded bytes) else .error .offset

/-- A read filters what the window gives. -/
theorem read_eq_obtained (log : EventLog) (q : EventQuery) (fs : Files) :
    log.read q fs = (log.obtained fs).bind fun vs => (select? q vs).mapError .filter := by
  unfold EventLog.read obtained
  cases fs.find? log.path with
  | none =>
    simp only [Except.bind, select?_nil]
    rfl
  | some node =>
    cases fs.read log.path with
    | error e => rfl
    | ok bytes =>
      dsimp only
      split <;> rfl

/-- The log, read through another window. -/
def through (log : EventLog) (window : Int) : EventLog := { log with window }

section

variable {log : EventLog} {fs : Files} {bytes : List UInt8}

theorem obtained_of_read (file : fs.read log.path = .ok bytes) (window : Int) :
    (log.through window).obtained fs =
      if canSeek window bytes then .ok (records (Text.decodeUtf8 (tail window bytes)))
      else .error .offset := by
  have there := Files.find?_of_read file
  unfold obtained
  simp only [show (log.through window).path = log.path from rfl, there, file]
  rfl

end

/-! Where a window cuts. -/

theorem whole_nil : Whole [] := by simp [Whole]

theorem whole_feed (body : List UInt8) : Whole (body ++ [0x0A]) := by
  intro b hb
  rw [List.getLast?_concat] at hb
  cases hb
  rfl

/-- Cut anywhere, whole lines are seen from a line on. -/
theorem Whole.cut {bytes : List UInt8} (h : Whole bytes) (n : Nat) :
    ∃ front, Whole front ∧ bytes = front ++ pastFeed (bytes.drop n) := by
  by_cases inside : n < bytes.length
  · obtain ⟨body, kept, split, free⟩ := List.eq_append_cons_of_mem (h.mem_drop inside)
    refine ⟨bytes.take n ++ (body ++ [0x0A]), ?_, ?_⟩
    · rw [← List.append_assoc]
      exact whole_feed _
    · have seen : pastFeed (bytes.drop n) = kept := by rw [split, pastFeed_feed free]
      rw [seen, List.append_assoc, List.append_assoc, List.singleton_append, ← split,
        List.take_append_drop]
  · refine ⟨bytes, h, ?_⟩
    rw [List.drop_eq_nil_of_le (Nat.not_lt.mp inside)]
    simp [pastFeed]

/-- Cut further behind, they are seen from the same line on or from one behind it. -/
theorem Whole.cut_later {bytes : List UInt8} (h : Whole bytes) (n : Nat) :
    ∃ front, Whole front ∧ pastFeed bytes = front ++ pastFeed (bytes.drop n) := by
  by_cases feed : 0x0A ∈ bytes
  · obtain ⟨body, kept, rfl, free⟩ := List.eq_append_cons_of_mem feed
    have wholeKept : Whole kept := h.suffix ⟨body ++ [0x0A], by simp⟩
    rw [pastFeed_feed free]
    by_cases here : n ≤ body.length
    · have freeBehind : 0x0A ∉ body.drop n := fun mem => free (List.mem_of_mem_drop mem)
      refine ⟨[], whole_nil, ?_⟩
      rw [List.drop_append_of_le_length here, pastFeed_feed freeBehind, List.nil_append]
    · obtain ⟨k, rfl⟩ : ∃ k, n = (body ++ [0x0A]).length + k :=
        ⟨n - (body.length + 1), by simp; omega⟩
      rw [List.append_cons body 0x0A kept, List.drop_length_add_append]
      exact wholeKept.cut k
  · have none : bytes = [] := by
      by_contra some
      exact feed (h.mem_drop (n := 0) (List.length_pos_iff.mpr some))
    subst none
    exact ⟨[], whole_nil, by simp [pastFeed]⟩

/-- A larger window shows what a smaller one shows, and whole lines in front of it. -/
theorem Whole.tail_of_le {bytes : List UInt8} (h : Whole bytes) {small large : Int}
    (le : small ≤ large) :
    ∃ front, Whole front ∧ tail large bytes = front ++ tail small bytes := by
  by_cases fits : (bytes.length : Int) ≤ small
  · refine ⟨[], whole_nil, ?_⟩
    rw [tail, tail, if_pos fits, if_pos (Int.le_trans fits le), List.nil_append]
  · rw [tail_of_lt (Int.not_le.mp fits)]
    by_cases fitsLarge : (bytes.length : Int) ≤ large
    · rw [tail, if_pos fitsLarge]
      exact h.cut _
    · rw [tail_of_lt (Int.not_le.mp fitsLarge)]
      obtain ⟨k, later⟩ : ∃ k, ((bytes.length : Int) - small).toNat =
          ((bytes.length : Int) - large).toNat + k := Nat.exists_eq_add_of_le (by omega)
      rw [later, ← List.drop_drop]
      exact (h.suffix (List.drop_suffix _ _)).cut_later k

theorem Whole.records_suffix {bytes : List UInt8} (h : Whole bytes) {small large : Int}
    (le : small ≤ large) :
    records (Text.decodeUtf8 (tail small bytes)) <:+
      records (Text.decodeUtf8 (tail large bytes)) := by
  obtain ⟨front, whole, seen⟩ := h.tail_of_le le
  rw [seen, records_append whole]
  exact List.suffix_append _ _

/-- Of all windows of a log of whole lines, those that can begin where they should give records, a
smaller one the last of those that a larger one gives, and one that holds the file all of them. -/
theorem windows_nest {log : EventLog} {fs : Files} {bytes : List UInt8}
    (file : fs.read log.path = .ok bytes) (whole : Whole bytes) :
    (∀ window : Int, (bytes.length : Int) ≤ window →
      (log.through window).obtained fs = .ok (records (Text.decodeUtf8 bytes))) ∧
      (∀ small large : Int, small ≤ large → (bytes.length : Int) - small < Nat.pow 2 63 →
        ∃ fewer more, (log.through small).obtained fs = .ok fewer ∧
          (log.through large).obtained fs = .ok more ∧ fewer <:+ more ∧
          more <:+ records (Text.decodeUtf8 bytes)) ∧
      ∀ window : Int, Nat.pow 2 63 ≤ (bytes.length : Int) - window →
        (log.through window).obtained fs = .error .offset := by
  refine ⟨?_, ?_, ?_⟩
  · intro window fits
    rw [obtained_of_read file, if_pos (canSeek_of_fits fits), tail, if_pos fits]
  · intro small large le inside
    have seeks : canSeek small bytes = true := decide_eq_true inside
    have seeksLarge : canSeek large bytes = true := decide_eq_true (by omega)
    have all := whole.records_suffix (Int.le_max_left large bytes.length)
    have fits : (bytes.length : Int) ≤ max large bytes.length := Int.le_max_right _ _
    rw [tail.eq_1 (max large bytes.length), if_pos fits] at all
    refine ⟨_, _, ?_, ?_, whole.records_suffix le, all⟩
    · rw [obtained_of_read file, if_pos seeks]
    · rw [obtained_of_read file, if_pos seeksLarge]
  · intro window beyond
    have fails : canSeek window bytes = false := decide_eq_false (by omega)
    rw [obtained_of_read file, fails]
    rfl

/-- Lines with a number each, and a damaged line between them. -/
def damagedBetween : List UInt8 := [0x35, 0x0A, 0x7B, 0xC3, 0x0A, 0x36, 0x0A]

theorem windows_nest_around_damage :
    (filesOf damagedBetween).read sampleLog.path = .ok damagedBetween ∧ Whole damagedBetween ∧
      ∃ fewer more, (sampleLog.through 3).obtained (filesOf damagedBetween) = .ok fewer ∧
        (sampleLog.through 6).obtained (filesOf damagedBetween) = .ok more ∧ fewer <:+ more ∧
        more <:+ records (Text.decodeUtf8 damagedBetween) := by
  have whole : Whole damagedBetween := whole_feed [0x35, 0x0A, 0x7B, 0xC3, 0x0A, 0x36]
  have nest := windows_nest (read_filesOf damagedBetween) whole
  exact ⟨read_filesOf damagedBetween, whole, nest.2.1 3 6 (by decide) (by decide)⟩

/-- A negative window may begin where no offset can say. -/
theorem window_without_offset :
    (filesOf [0x35, 0x0A]).read sampleLog.path = .ok [0x35, 0x0A] ∧ Whole [0x35, 0x0A] ∧
      (sampleLog.through (-Int.pow 2 63)).obtained (filesOf [0x35, 0x0A]) = .error .offset := by
  refine ⟨read_filesOf _, whole_feed [0x35], ?_⟩
  have fails : canSeek (-Int.pow 2 63) [0x35, 0x0A] = false := by decide
  rw [obtained_of_read (read_filesOf _), fails]
  rfl

end FormulaSheet.EventLog
