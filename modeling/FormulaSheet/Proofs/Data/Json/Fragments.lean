import FormulaSheet.Proofs.Data.Json.Characters
/-!
Text in front of a table. A value that begins in front of a table ends there, or it is a string that
ends with the first quote in the table. Either way something is left over that is no JSON by itself
and no mark between values, so a text in front of a table makes the whole no JSON, whatever the text
is. How many steps reading takes does not matter, as long as they are enough.
-/

namespace FormulaSheet.Json

open Text

/-! More steps than are needed change nothing. -/

/-- What is read with so many steps is read with one more. -/
structure Settled (n : Nat) : Prop where
  value : ∀ cs x, readValue n cs = some x → readValue (n + 1) cs = some x
  items : ∀ cs x, readItems n cs = some x → readItems (n + 1) cs = some x
  entries : ∀ cs x, readEntries n cs = some x → readEntries (n + 1) cs = some x

theorem Settled.readValue {n : Nat} (h : Settled n) {cs : List Char} {x : RawValue × List Char}
    (read : readValue (n + 1) cs = some x) : readValue (n + 2) cs = some x := by
  unfold Json.readValue at read
  split at read
  · exact read
  · rw [readValue_list]
    split at read
    · exact read
    · obtain ⟨found, there, made⟩ := Option.map_eq_some_iff.mp read
      simp only [h.items _ _ there, Option.map_some, made]
  · rw [readValue_table]
    split at read
    · exact read
    · obtain ⟨found, there, made⟩ := Option.map_eq_some_iff.mp read
      simp only [h.entries _ _ there, Option.map_some, made]
  · exact read
  · exact read
  · exact read
  · exact read
  · exact read
  · exact read
  · rw [Json.readValue]
    exact read
    all_goals assumption

theorem Settled.readItems {n : Nat} (h : Settled n) {cs : List Char}
    {x : List RawValue × List Char} (read : readItems (n + 1) cs = some x) :
    readItems (n + 2) cs = some x := by
  unfold Json.readItems at read ⊢
  split at read
  · cases read
  · rename_i v rest first
    simp only [h.value _ _ first]
    split at read
    · exact read
    · obtain ⟨found, there, made⟩ := Option.map_eq_some_iff.mp read
      simp only [h.items _ _ there, Option.map_some, made]
    · cases read

theorem Settled.readEntries {n : Nat} (h : Settled n) {cs : List Char}
    {x : List (RawText × RawValue) × List Char} (read : readEntries (n + 1) cs = some x) :
    readEntries (n + 2) cs = some x := by
  unfold Json.readEntries at read ⊢
  split at read
  · split at read
    · cases read
    · split at read
      · split at read
        · cases read
        · rename_i key _ _ _ _ _ v rest value
          simp only [h.value _ _ value]
          split at read
          · exact read
          · obtain ⟨found, there, made⟩ := Option.map_eq_some_iff.mp read
            simp only [h.entries _ _ there, Option.map_some, made]
          · cases read
      · cases read
  · cases read

theorem settled (n : Nat) : Settled n := by
  induction n with
  | zero =>
    constructor
    · intro cs x h
      cases h
    · intro cs x h
      cases h
    · intro cs x h
      cases h
  | succ n ih =>
    exact ⟨fun _ _ => ih.readValue, fun _ _ => ih.readItems, fun _ _ => ih.readEntries⟩

theorem readValue_of_le {m n : Nat} (le : m ≤ n) {cs : List Char} {x : RawValue × List Char}
    (read : readValue m cs = some x) : readValue n cs = some x := by
  induction le with
  | refl => exact read
  | step _ ih => exact (settled _).value _ _ ih

theorem readValue_unique {m n : Nat} {cs : List Char} {x y : RawValue × List Char}
    (read : readValue m cs = some x) (read' : readValue n cs = some y) : x = y := by
  have large := readValue_of_le (Nat.le_max_left m n) read
  have large' := readValue_of_le (Nat.le_max_right m n) read'
  exact Option.some.inj (large.symm.trans large')

/-- However many steps are taken, the text of a value is read to its end or not at all. -/
theorem rest_of_chars {v : Value} {w : RawValue} {rest : List Char} {n : Nat}
    (finite : isFinite v = true) (read : readValue n (chars v) = some (w, rest)) : rest = [] := by
  have alone : Follows [] := by simp [Follows]
  rw [← chars_ofValue] at read
  have whole := readValue_chars (RawValue.ofValue v) (n := (RawValue.ofValue v).chars.length)
    (legible_ofValue finite) alone (by omega)
  rw [List.append_nil] at whole
  exact congrArg Prod.snd (readValue_unique read whole)

/-! What reading passes. -/

/-- The text is read up to the rest, and no brace is opened on the way. -/
def Passes (cs rest : List Char) : Prop := ∃ passed, cs = passed ++ rest ∧ '{' ∉ passed

theorem Passes.refl (cs : List Char) : Passes cs cs := ⟨[], rfl, by simp⟩

theorem Passes.cons {c : Char} (plain : c ≠ '{') {cs rest : List Char} (h : Passes cs rest) :
    Passes (c :: cs) rest := by
  obtain ⟨passed, rfl, free⟩ := h
  exact ⟨c :: passed, rfl, by simp [free, plain.symm]⟩

theorem Passes.trans {cs middle rest : List Char} (h : Passes cs middle)
    (h' : Passes middle rest) : Passes cs rest := by
  obtain ⟨passed, rfl, free⟩ := h
  obtain ⟨passed', rfl, free'⟩ := h'
  exact ⟨passed ++ passed', by simp, by simp [free, free']⟩

theorem passes_append {passed : List Char} (free : '{' ∉ passed) (rest : List Char) :
    Passes (passed ++ rest) rest := ⟨passed, rfl, free⟩

theorem passes_dropWhile {p : Char → Bool} (brace : p '{' = false) (cs : List Char) :
    Passes cs (cs.dropWhile p) := by
  refine ⟨cs.takeWhile p, List.takeWhile_append_dropWhile.symm, fun mem => ?_⟩
  have inside := mem_takeWhile _ mem
  rw [brace] at inside
  cases inside

/-- It goes no further than to the first brace that is opened. -/
theorem Passes.stops {cs rest : List Char} (h : Passes cs rest) {p x : List Char}
    (brace : cs = p ++ '{' :: x) : ∃ kept, rest = kept ++ '{' :: x := by
  obtain ⟨passed, split, free⟩ := h
  rw [brace] at split
  rcases List.append_eq_append_iff.mp split with ⟨more, rfl, behind⟩ | ⟨kept, rfl, behind⟩
  · cases more with
    | nil => exact ⟨[], behind.symm⟩
    | cons c more =>
      cases behind
      exact absurd (List.mem_append_right p List.mem_cons_self) free
  · exact ⟨kept, behind⟩

theorem passes_readWhole? {cs ds rest : List Char} (h : readWhole? cs = some (ds, rest)) :
    Passes cs rest := by
  unfold readWhole? at h
  split at h
  · cases h
    exact (Passes.refl _).cons (by decide)
  · dsimp only at h
    split at h
    · cases h
    · cases h
      exact passes_dropWhile (by decide) _

theorem passes_readFraction? {cs ds rest : List Char} (h : readFraction? cs = some (ds, rest)) :
    Passes cs rest := by
  unfold readFraction? at h
  split at h
  · dsimp only at h
    split at h
    · cases h
    · cases h
      exact (passes_dropWhile (by decide) _).cons (by decide)
  · cases h

theorem passes_scanSign (cs : List Char) : Passes cs (Decimal.scanSign cs).2 := by
  unfold Decimal.scanSign
  split
  · exact (Passes.refl _).cons (by decide)
  · exact (Passes.refl _).cons (by decide)
  · exact Passes.refl _

theorem passes_readExponent? {cs rest : List Char} {i : Int}
    (h : readExponent? cs = some (i, rest)) : Passes cs rest := by
  cases cs with
  | nil => cases h
  | cons c tail =>
    unfold readExponent? at h
    dsimp only at h
    split at h
    · rename_i mark
      split at h
      · cases h
      · cases h
        have plain : c ≠ '{' := by
          rintro rfl
          exact absurd mark (by decide)
        exact ((passes_scanSign tail).trans (passes_dropWhile (by decide) _)).cons plain
    · cases h

theorem passes_readUnsigned {negative : Bool} {cs rest : List Char} {v : RawValue}
    (h : readUnsigned negative cs = some (v, rest)) : Passes cs rest := by
  obtain ⟨⟨ds, behind⟩, whole, made⟩ := Option.map_eq_some_iff.mp h
  refine (passes_readWhole? whole).trans ?_
  cases hf : readFraction? behind with
  | none =>
    cases he : readExponent? behind with
    | none =>
      simp only [hf, he, Option.map_none, Option.getD_none] at made
      cases made
      exact Passes.refl _
    | some exponent =>
      simp only [hf, he, Option.map_none, Option.getD_none, Option.map_some,
        Option.getD_some] at made
      cases made
      exact passes_readExponent? he
  | some fraction =>
    have passes := passes_readFraction? hf
    cases he : readExponent? fraction.2 with
    | none =>
      simp only [hf, he, Option.map_none, Option.getD_none, Option.map_some,
        Option.getD_some] at made
      cases made
      exact passes
    | some exponent =>
      simp only [hf, he, Option.map_some, Option.getD_some] at made
      cases made
      exact passes.trans (passes_readExponent? he)

theorem passes_readNumber {cs rest : List Char} {v : RawValue}
    (h : readNumber cs = some (v, rest)) : Passes cs rest := by
  unfold readNumber at h
  split at h
  · exact (passes_readUnsigned h).cons (by decide)
  · exact passes_readUnsigned h

/-! A text in front of a table. -/

theorem brace_of_unit? {a b c d : Char} {n : Nat} (h : unit? a b c d = some n) :
    '{' ∉ ['\\', 'u', a, b, c, d] := by
  have brace : hexDigit? '{' = none := by decide
  intro mem
  have one : '{' = a ∨ '{' = b ∨ '{' = c ∨ '{' = d := by simpa using mem
  unfold unit? at h
  rcases one with rfl | rfl | rfl | rfl
  · simp [brace] at h
  · simp [brace] at h
  · simp [brace] at h
  · simp [brace] at h

theorem brace_of_escape? {c x : Char} (h : escape? c = some x) : '{' ∉ ['\\', c] := by
  intro mem
  have same : '{' = c := by simpa using mem
  subst same
  cases h

/-- A string that begins in front of a table ends in front of it, or with the first quote in it. -/
theorem readString_stops {cs p x rest : List Char} {s : RawText} (brace : cs = p ++ '{' :: '"' :: x)
    (read : readString cs = some (s, rest)) :
    (∃ kept, rest = kept ++ '{' :: '"' :: x) ∨ rest = x := by
  fun_induction readString cs generalizing p s with
  | case1 => cases read
  | case2 behind =>
    cases read
    exact .inl (((Passes.refl _).cons (by decide)).stops brace)
  | case3 => cases read
  | case4 a b c d high first e f g h more y second ih =>
    obtain ⟨⟨_, _⟩, inner, same⟩ := Option.map_eq_some_iff.mp read
    cases same
    obtain ⟨low, unit, _⟩ := Option.bind_eq_some_iff.mp second
    have pair := (passes_append (brace_of_unit? first) _).trans
      (passes_append (brace_of_unit? unit) more)
    obtain ⟨kept, behind⟩ := pair.stops brace
    exact ih behind inner
  | case5 a b c d high first e f g h more second ih =>
    obtain ⟨⟨_, _⟩, inner, same⟩ := Option.map_eq_some_iff.mp read
    cases same
    obtain ⟨kept, behind⟩ := (passes_append (brace_of_unit? first) _).stops brace
    exact ih behind inner
  | case6 a b c d high first behind _ ih =>
    obtain ⟨⟨_, _⟩, inner, same⟩ := Option.map_eq_some_iff.mp read
    cases same
    obtain ⟨kept, there⟩ := (passes_append (brace_of_unit? first) behind).stops brace
    exact ih there inner
  | case7 => cases read
  | case8 c behind _ y escaped ih =>
    obtain ⟨⟨_, _⟩, inner, same⟩ := Option.map_eq_some_iff.mp read
    cases same
    obtain ⟨kept, there⟩ := (passes_append (brace_of_escape? escaped) behind).stops brace
    exact ih there inner
  | case9 => cases read
  | case10 c behind _ _ _ _ ih =>
    obtain ⟨⟨_, _⟩, inner, same⟩ := Option.map_eq_some_iff.mp read
    cases same
    cases p with
    | nil =>
      -- the brace is a character of the string, and the quote behind it ends the string
      cases brace
      rw [readString] at inner
      cases inner
      exact .inr rfl
    | cons d p =>
      cases brace
      exact ih rfl inner

/-- How far a value reaches: a string, a list, a table, or what opens no brace. -/
inductive Reaches (n : Nat) : List Char → List Char → Prop
  | string {cs rest : List Char} {s : RawText} (h : readString cs = some (s, rest)) :
    Reaches n ('"' :: cs) rest
  | emptyList {cs rest : List Char} (h : skipSpace cs = ']' :: rest) : Reaches n ('[' :: cs) rest
  | list {cs rest : List Char} {items : List RawValue}
      (h : readItems n (skipSpace cs) = some (items, rest)) : Reaches n ('[' :: cs) rest
  | emptyTable {cs rest : List Char} (h : skipSpace cs = '}' :: rest) : Reaches n ('{' :: cs) rest
  | table {cs rest : List Char} {entries : List (RawText × RawValue)}
      (h : readEntries n (skipSpace cs) = some (entries, rest)) : Reaches n ('{' :: cs) rest
  | plain {cs rest : List Char} (h : Passes cs rest) : Reaches n cs rest

theorem reaches_of_readValue {n : Nat} {cs rest : List Char} {v : RawValue}
    (read : readValue (n + 1) cs = some (v, rest)) : Reaches n cs rest := by
  unfold readValue at read
  split at read
  · obtain ⟨⟨_, _⟩, string, same⟩ := Option.map_eq_some_iff.mp read
    cases same
    exact .string string
  · split at read
    · rename_i closed
      cases read
      exact .emptyList closed
    · obtain ⟨⟨_, _⟩, items, same⟩ := Option.map_eq_some_iff.mp read
      cases same
      exact .list items
  · split at read
    · rename_i closed
      cases read
      exact .emptyTable closed
    · obtain ⟨⟨_, _⟩, entries, same⟩ := Option.map_eq_some_iff.mp read
      cases same
      exact .table entries
  · cases read
    exact .plain (passes_append (by decide) _ : Passes ("null".toList ++ _) _)
  · cases read
    exact .plain (passes_append (by decide) _ : Passes ("true".toList ++ _) _)
  · cases read
    exact .plain (passes_append (by decide) _ : Passes ("false".toList ++ _) _)
  · cases read
    exact .plain (passes_append (by decide) _ : Passes ("NaN".toList ++ _) _)
  · cases read
    exact .plain (passes_append (by decide) _ : Passes ("Infinity".toList ++ _) _)
  · cases read
    exact .plain (passes_append (by decide) _ : Passes ("-Infinity".toList ++ _) _)
  · exact .plain (passes_readNumber read)

/-- A table with an entry, by what stands behind its first quote: it is read to its end or not at
all, and the quote is followed by no mark that could follow a string. -/
structure IsTable (x : List Char) : Prop where
  alone : ∀ {n v rest}, readValue n ('{' :: '"' :: x) = some (v, rest) → rest = []
  first : ∃ c tail, x = c :: tail ∧ isSpace c = false ∧ c ∉ [',', ':', ']', '}']

/-- Reading has stopped in front of the table, behind its first quote, or at its end. -/
inductive Stopped (x : List Char) : List Char → Prop
  | front (kept : List Char) : Stopped x (kept ++ '{' :: '"' :: x)
  | quote : Stopped x x
  | done : Stopped x []

theorem skipSpace_brace (p x : List Char) : skipSpace (p ++ '{' :: x) = skipSpace p ++ '{' :: x :=
  dropWhile_stop (by decide) p x

/-- Only in front of the table there can be a mark. -/
theorem IsTable.mark {x : List Char} (h : IsTable x) {rest behind : List Char}
    (stopped : Stopped x rest) {c : Char} (mark : c ∈ [',', ':', ']', '}'])
    (next : skipSpace rest = c :: behind) : ∃ kept, behind = kept ++ '{' :: '"' :: x := by
  cases stopped with
  | front kept =>
    rw [skipSpace_brace] at next
    cases spaces : skipSpace kept with
    | nil =>
      rw [spaces] at next
      cases next
      exact absurd mark (by decide)
    | cons d kept =>
      rw [spaces] at next
      cases next
      exact ⟨kept, rfl⟩
  | quote =>
    obtain ⟨d, tail, rfl, space, apart⟩ := h.first
    simp only [skipSpace, List.dropWhile_cons, space] at next
    cases next
    exact absurd mark apart
  | done => cases next

/-- With so many steps reading does not go on into the table. -/
structure Bars (x : List Char) (n : Nat) : Prop where
  value : ∀ p v rest, readValue n (p ++ '{' :: '"' :: x) = some (v, rest) →
    Stopped x rest ∧ (rest = [] → p = [])
  items : ∀ p items rest, readItems n (p ++ '{' :: '"' :: x) = some (items, rest) →
    ∃ kept, rest = kept ++ '{' :: '"' :: x
  entries : ∀ p entries rest, readEntries n (p ++ '{' :: '"' :: x) = some (entries, rest) →
    ∃ kept, rest = kept ++ '{' :: '"' :: x

variable {x : List Char} {n : Nat}

theorem Bars.readValue (h : Bars x n) (table : IsTable x) {c : Char} {p rest : List Char}
    {v : RawValue} (read : readValue (n + 1) (c :: (p ++ '{' :: '"' :: x)) = some (v, rest)) :
    (∃ kept, rest = kept ++ '{' :: '"' :: x) ∨ rest = x := by
  have reaches := reaches_of_readValue read
  generalize text : c :: (p ++ '{' :: '"' :: x) = cs at reaches
  cases reaches with
  | string string =>
    cases text
    exact readString_stops rfl string
  | emptyList closed =>
    cases text
    exact .inl (table.mark (.front p) (by decide) closed)
  | list items =>
    cases text
    rw [skipSpace_brace] at items
    exact .inl (h.items _ _ _ items)
  | emptyTable closed =>
    cases text
    exact .inl (table.mark (.front p) (by decide) closed)
  | table entries =>
    cases text
    rw [skipSpace_brace] at entries
    exact .inl (h.entries _ _ _ entries)
  | plain passes =>
    have brace : cs = (c :: p) ++ '{' :: '"' :: x := text.symm
    exact .inl (passes.stops brace)

theorem Bars.value_succ (h : Bars x n) (table : IsTable x) {p rest : List Char} {v : RawValue}
    (read : Json.readValue (n + 1) (p ++ '{' :: '"' :: x) = some (v, rest)) :
    Stopped x rest ∧ (rest = [] → p = []) := by
  cases p with
  | nil =>
    cases table.alone read
    exact ⟨.done, fun _ => rfl⟩
  | cons c p =>
    rcases h.readValue table read with ⟨kept, rfl⟩ | rfl
    · exact ⟨.front kept, by simp⟩
    · obtain ⟨d, tail, rfl, _⟩ := table.first
      exact ⟨.quote, by simp⟩

theorem Bars.items_succ (h : Bars x n) (table : IsTable x) {p rest : List Char}
    {items : List RawValue} (read : readItems (n + 1) (p ++ '{' :: '"' :: x) = some (items, rest)) :
    ∃ kept, rest = kept ++ '{' :: '"' :: x := by
  unfold readItems at read
  split at read
  · cases read
  · rename_i v behind value
    have stopped := (h.value _ _ _ value).1
    split at read
    · rename_i closed
      cases read
      exact table.mark stopped (by decide) closed
    · rename_i comma
      obtain ⟨⟨_, _⟩, more, same⟩ := Option.map_eq_some_iff.mp read
      cases same
      obtain ⟨kept, rfl⟩ := table.mark stopped (by decide) comma
      rw [skipSpace_brace] at more
      exact h.items _ _ _ more
    · cases read

theorem Bars.entries_succ (h : Bars x n) (table : IsTable x) {p rest : List Char}
    {entries : List (RawText × RawValue)}
    (read : readEntries (n + 1) (p ++ '{' :: '"' :: x) = some (entries, rest)) :
    ∃ kept, rest = kept ++ '{' :: '"' :: x := by
  generalize text : p ++ '{' :: '"' :: x = cs at read
  unfold readEntries at read
  split at read
  · rename_i behind
    split at read
    · cases read
    · rename_i k afterKey key
      have stoppedKey : Stopped x afterKey := by
        have quoted := ((Passes.refl behind).cons (by decide : '"' ≠ '{')).stops text.symm
        obtain ⟨kept, rfl⟩ := quoted
        rcases readString_stops rfl key with ⟨kept, rfl⟩ | rfl
        · exact .front kept
        · exact .quote
      split at read
      · rename_i colon
        obtain ⟨kept, rfl⟩ := table.mark stoppedKey (by decide) colon
        rw [skipSpace_brace] at read
        split at read
        · cases read
        · rename_i v afterValue value
          have stopped := (h.value _ _ _ value).1
          split at read
          · rename_i closed
            cases read
            exact table.mark stopped (by decide) closed
          · rename_i comma
            obtain ⟨⟨_, _⟩, more, same⟩ := Option.map_eq_some_iff.mp read
            cases same
            obtain ⟨kept, rfl⟩ := table.mark stopped (by decide) comma
            rw [skipSpace_brace] at more
            exact h.entries _ _ _ more
          · cases read
      · cases read
  · cases read

theorem bars (table : IsTable x) (n : Nat) : Bars x n := by
  induction n with
  | zero =>
    constructor
    · intro p v rest read
      cases read
    · intro p items rest read
      cases read
    · intro p entries rest read
      cases read
  | succ n ih =>
    exact ⟨fun _ _ _ => ih.value_succ table, fun _ _ _ => ih.items_succ table,
      fun _ _ _ => ih.entries_succ table⟩

/-- A text in front of a table makes the whole no JSON, whatever the text is. -/
theorem read?_fragment (table : IsTable x) {p : List Char} (some : skipSpace p ≠ []) :
    read? (p ++ '{' :: '"' :: x) = none := by
  unfold read? readRaw?
  rw [skipSpace_brace]
  split
  · rename_i v rest read
    obtain ⟨stopped, done⟩ := (bars table _).value _ _ _ read
    have more : skipSpace rest ≠ [] := by
      cases stopped with
      | front kept =>
        rw [skipSpace_brace]
        simp
      | quote =>
        obtain ⟨c, tail, rfl, space, _⟩ := table.first
        simp [skipSpace, space]
      | done => exact absurd (done rfl) some
    simp [more]
  · rfl

end FormulaSheet.Json
