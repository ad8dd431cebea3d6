import FormulaSheet.Proofs.Formula.Lexemes
import Mathlib.Data.List.Induction
import Mathlib.Logic.Relation
/-!
What reading a text takes and where it stops. Turn by turn the reading drops a separator or takes a
lexeme, so each turn shortens the text. If it comes to the end, lexemes and separators tile the
text. Else it stops in front of a character that begins no lexeme; what stands before that character
would be read the same way without it.
-/

namespace FormulaSheet

open Text

namespace Lexeme

/-! One equation for each kind of turn. -/

theorem isSeparator_of_plain {c : Char} (h : IsPlain c) : isSeparator c = false := by
  have blank : ∀ c ∈ [' ', '\t', '\x0C', '\r', '\n'], isBlank c = true :=
    List.all_eq_true.mp (by decide)
  rw [← Bool.not_eq_true]
  intro separator
  have mem : c ∈ [' ', '\t', '\x0C', '\r', '\n'] := by
    simpa [isSeparator, or_assoc] using separator
  exact absurd (blank c mem) (by simp [h.1])

theorem Formed.notSeparators {l : Lexeme} (h : l.Formed) : ∀ c ∈ l.text, isSeparator c = false :=
  fun c hc => isSeparator_of_plain (h.plain c hc)

theorem scan_separator {c : Char} (h : isSeparator c = true) (p : Place) (rest : List Char) :
    scan p (c :: rest) = scan (p.after c) rest := by
  rw [scan, if_pos h]

theorem scan_next {cs rest : List Char} {l : Lexeme} (found : next? cs = some (l, rest))
    (p : Place) : scan p cs = (scan (p.afterAll l.text) rest).map (l :: ·) := by
  have formed := formed_of_next? found
  obtain ⟨split, _⟩ := text_append_of_next? found
  cases text : l.text with
  | nil => exact absurd text formed.nonempty
  | cons c tail =>
    have separator := formed.notSeparators c (by rw [text]; exact List.mem_cons_self)
    rw [← split, text, List.cons_append] at found ⊢
    rw [scan, if_neg (by simp [separator])]
    split
    · rename_i none
      rw [found] at none
      cases none
    · rename_i l' rest' some
      obtain ⟨rfl, rfl⟩ := Prod.mk.inj (Option.some.inj (found.symm.trans some))
      rw [text]

theorem scan_stop {c : Char} {rest : List Char} (separator : isSeparator c = false)
    (none : next? (c :: rest) = none) (p : Place) : scan p (c :: rest) = .error ⟨c, p⟩ := by
  rw [scan, if_neg (by simp [separator])]
  split
  · rfl
  · rename_i l' rest' some
    rw [none] at some
    cases some

/-! What a reading that comes to the end took. -/

/-- One turn of the reading. -/
inductive Turn : List Char → List Char → Prop
  | separator {c : Char} {rest : List Char} (drop : isSeparator c = true) : Turn (c :: rest) rest
  | lexeme {cs rest : List Char} {l : Lexeme} (take : next? cs = some (l, rest)) : Turn cs rest

theorem Turn.length_lt {cs rest : List Char} (h : Turn cs rest) : rest.length < cs.length := by
  cases h with
  | separator drop => exact Nat.lt_succ_self _
  | lexeme take => exact length_lt_of_next? take

/-- No text can be turned to forever. -/
theorem turns_end : WellFounded fun rest cs => Turn cs rest :=
  Subrelation.wf Turn.length_lt (measure List.length).wf

/-- The text is made of the lexemes in order, with separators anywhere between them. A reference is
followed by nothing that could belong to it. -/
inductive Tiled : List Char → List Lexeme → Prop
  | nil : Tiled [] []
  | separator {c : Char} {rest : List Char} {ls : List Lexeme} (drop : isSeparator c = true)
      (tail : Tiled rest ls) : Tiled (c :: rest) ls
  | lexeme {l : Lexeme} {rest : List Char} {ls : List Lexeme} (formed : l.Formed)
      (ends : l.kind = .reference → ∀ c ∈ rest.head?, isWordChar c = false)
      (tail : Tiled rest ls) : Tiled (l.text ++ rest) (l :: ls)

theorem ends_of_next? {cs rest : List Char} {l : Lexeme} (found : next? cs = some (l, rest))
    (reference : l.kind = .reference) : ∀ c ∈ rest.head?, isWordChar c = false := by
  simp only [next?, Option.or_eq_some_iff] at found
  rcases found with found | ⟨-, found | ⟨-, found | ⟨-, found⟩⟩⟩
  · exact (isReference_of_reference? found).2.2.2
  · unfold word? at found
    split at found
    · cases found
    · split at found
      · cases found
        cases reference
      · cases found
  · obtain ⟨_, _, same⟩ := Option.map_eq_some_iff.mp found
    cases same
    cases reference
  · unfold sign? at found
    split at found
    · cases found
    · split at found
      · cases found
        cases reference
      · split at found
        · cases found
          cases reference
        · cases found

theorem tiled_of_scan {p : Place} {cs : List Char} {ls : List Lexeme} (h : scan p cs = .ok ls) :
    Tiled cs ls ∧ Relation.ReflTransGen Turn cs [] := by
  induction p, cs using scan.induct generalizing ls with
  | case1 p =>
    rw [scan] at h
    cases h
    exact ⟨.nil, .refl⟩
  | case2 p c tail separator ih =>
    rw [scan_separator separator] at h
    obtain ⟨tiled, turns⟩ := ih h
    exact ⟨.separator separator tiled, .head (.separator separator) turns⟩
  | case3 p c tail separator none =>
    rw [scan_stop (by simpa using separator) none] at h
    cases h
  | case4 p c tail separator l rest found ih =>
    rw [scan_next found] at h
    cases more : scan (p.afterAll l.text) rest with
    | error e =>
      rw [more] at h
      cases h
    | ok others =>
      rw [more] at h
      cases h
      obtain ⟨tiled, turns⟩ := ih more
      refine ⟨?_, .head (.lexeme found) turns⟩
      rw [← (text_append_of_next? found).1]
      exact .lexeme (formed_of_next? found) (ends_of_next? found) tiled

theorem Tiled.formed {cs : List Char} {ls : List Lexeme} (h : Tiled cs ls) :
    ∀ l ∈ ls, l.Formed := by
  induction h with
  | nil =>
    intro l hl
    cases hl
  | separator drop tail ih => exact ih
  | lexeme formed ends tail ih =>
    intro l hl
    rcases List.mem_cons.mp hl with rfl | hl
    · exact formed
    · exact ih l hl

theorem formed_of_scan {p : Place} {cs : List Char} {ls : List Lexeme} (h : scan p cs = .ok ls) :
    ∀ l ∈ ls, l.Formed :=
  (tiled_of_scan h).1.formed

theorem Tiled.text {cs : List Char} {ls : List Lexeme} (h : Tiled cs ls) :
    ls.flatMap Lexeme.text = cs.filter fun c => !isSeparator c := by
  induction h with
  | nil => rfl
  | separator drop tail ih => simp [drop, ih]
  | @lexeme l rest ls formed ends tail ih =>
    have all : l.text.filter (fun c => !isSeparator c) = l.text := by
      rw [List.filter_eq_self]
      intro c hc
      simp [formed.notSeparators c hc]
    rw [List.flatMap_cons, List.filter_append, all, ih]

theorem Formed.kind_eq_reference_iff {l : Lexeme} (h : l.Formed) :
    l.kind = .reference ↔ IsReference l.text := by
  constructor
  · intro kind
    cases h with
    | reference letters => exact letters
    | word start chars apart => cases kind
    | number formed => cases kind
    | operator sign => cases kind
    | parenthesis sign => cases kind
  · intro reference
    have letter := reference.head_letter
    cases h with
    | reference letters => rfl
    | word start chars apart => exact absurd reference apart
    | @number n formed =>
      cases text : n.chars with
      | nil => exact absurd text (Formed.number formed).nonempty
      | cons c tail =>
        have isLetter := letter c (by simp [text])
        rcases Decimal.head?_chars formed [] c (by simp [text]) with digit | rfl
        · rw [isLetter_of_isDigit digit] at isLetter
          cases isLetter
        · cases isLetter
    | operator sign =>
      have isLetter := letter _ rfl
      rcases operatorChars sign with rfl | rfl | rfl | rfl <;> cases isLetter
    | parenthesis sign =>
      have isLetter := letter _ rfl
      rcases parentheses sign with rfl | rfl <;> cases isLetter

/-! Where a reading stops. -/

/-- No lexeme begins with the character, and it is not one that is dropped. A point begins a number
if a digit follows it. -/
structure StartsNothing (c : Char) (rest : List Char) : Prop where
  letter : isLetter c = false
  line : c ≠ '_'
  digit : isDigit c = false
  operator : isOperatorChar c = false
  parenthesis : isParenthesis c = false
  separator : isSeparator c = false
  point : c = '.' → ∀ d ∈ rest.head?, isDigit d = false

theorem startsNothing_iff {c : Char} {rest : List Char} :
    StartsNothing c rest ↔ isSeparator c = false ∧ next? (c :: rest) = none := by
  simp only [next?, Option.or_eq_none_iff, number?, Option.map_eq_none_iff,
    Decimal.scan?_eq_none_iff]
  constructor
  · intro h
    have start : isWordStart c = false := by simp [isWordStart, h.letter, h.line]
    refine ⟨h.separator, reference?_of_noLetter (by simpa using h.letter),
      word?_of_noStart (by simpa using start), ⟨h.digit, h.point⟩, ?_⟩
    simp [sign?, h.operator, h.parenthesis]
  · rintro ⟨separator, -, word, ⟨digit, point⟩, sign⟩
    have start : isWordStart c = false := by simpa [word?] using word
    simp only [isWordStart, Bool.or_eq_false_iff, beq_eq_false_iff_ne] at start
    have operator : isOperatorChar c = false := by
      rw [← Bool.not_eq_true]
      intro operator
      simp [sign?, operator] at sign
    have parenthesis : isParenthesis c = false := by
      rw [← Bool.not_eq_true]
      intro parenthesis
      simp [sign?, operator, parenthesis] at sign
    exact ⟨start.1, start.2, digit, operator, parenthesis, separator, point⟩

theorem StartsNothing.no_turn {c : Char} {rest : List Char} (h : StartsNothing c rest)
    (next : List Char) : ¬ Turn (c :: rest) next := by
  obtain ⟨separator, none⟩ := startsNothing_iff.mp h
  intro turn
  cases turn with
  | separator drop =>
    rw [separator] at drop
    cases drop
  | lexeme take =>
    rw [none] at take
    cases take

section Stop

variable {c : Char} {rest : List Char} (h : StartsNothing c rest)
include h

theorem StartsNothing.notWordChar : isWordChar c = false := by
  have ascii : isAsciiDigit c = false := by
    rw [← Bool.not_eq_true]
    intro digit
    exact absurd (isDigit_of_isAsciiDigit digit) (by simp [h.digit])
  simp [isWordChar, h.letter, h.line, ascii]

theorem reference?_stop (front : List Char) :
    reference? (front ++ c :: rest) =
      (reference? front).map fun found => (found.1, found.2 ++ c :: rest) := by
  have noWordChar := h.notWordChar
  have noDigit := isAsciiDigit_of_notWordChar noWordChar
  have noMore : ∀ more : List Char,
      (more ++ c :: rest).head?.any isWordChar = more.head?.any isWordChar := by
    intro more
    cases more with
    | nil => simpa using noWordChar
    | cons d ds => rfl
  simp only [reference?, takeWhile_stop h.letter, dropWhile_stop h.letter, takeWhile_stop noDigit,
    dropWhile_stop noDigit, noMore]
  split <;> rfl

theorem word?_stop (front : List Char) :
    word? (front ++ c :: rest) =
      (word? front).map fun found => (found.1, found.2 ++ c :: rest) := by
  cases front with
  | nil => exact word?_of_noStart (by simp [isWordStart, h.letter, h.line])
  | cons d ds =>
    simp only [List.cons_append, word?, takeWhile_stop h.notWordChar,
      dropWhile_stop h.notWordChar]
    split <;> rfl

theorem sign?_stop (front : List Char) :
    sign? (front ++ c :: rest) =
      (sign? front).map fun found => (found.1, found.2 ++ c :: rest) := by
  cases front with
  | nil => simp [sign?, h.operator, h.parenthesis]
  | cons d ds =>
    simp only [List.cons_append, sign?]
    split
    · rfl
    · split <;> rfl

theorem number?_of_stop {front behind : List Char} {l : Lexeme}
    (found : number? (front ++ c :: rest) = some (l, behind ++ c :: rest)) :
    number? front = some (l, behind) := by
  have mark : c ≠ 'e' ∧ c ≠ 'E' := by
    constructor <;> exact (ne_of_class (by decide) h.letter).symm
  have sign : c ≠ '+' ∧ c ≠ '-' := by
    constructor <;> exact (ne_of_class (by decide) h.operator).symm
  obtain ⟨⟨n, tail⟩, scanned, same⟩ := Option.map_eq_some_iff.mp found
  cases same
  rw [number?, Decimal.scan?_of_stop h.digit mark sign scanned]
  rfl

/-- A lexeme that ends before a character with which no lexeme begins is found without it. -/
theorem next?_of_stop {front behind : List Char} {l : Lexeme}
    (found : next? (front ++ c :: rest) = some (l, behind ++ c :: rest)) :
    next? front = some (l, behind) := by
  have inFront : ∀ {first : Option (Lexeme × List Char)},
      first.map (fun found => (found.1, found.2 ++ c :: rest)) = some (l, behind ++ c :: rest) →
      first = some (l, behind) := by
    intro first same
    obtain ⟨⟨l', behind'⟩, some, both⟩ := Option.map_eq_some_iff.mp same
    obtain ⟨rfl, tail⟩ := Prod.mk.inj both
    obtain rfl : behind' = behind := List.append_cancel_right tail
    exact some
  simp only [next?, Option.or_eq_some_iff, reference?_stop h, word?_stop h, sign?_stop h,
    Option.map_eq_none_iff] at found ⊢
  rcases found with reference | ⟨noReference, word | ⟨noWord, number | ⟨noNumber, sign⟩⟩⟩
  · exact .inl (inFront reference)
  · exact .inr ⟨noReference, .inl (inFront word)⟩
  · exact .inr ⟨noReference, .inr ⟨noWord, .inl (number?_of_stop h number)⟩⟩
  · have sign := inFront sign
    refine .inr ⟨noReference, .inr ⟨noWord, .inr ⟨?_, sign⟩⟩⟩
    cases front with
    | nil => cases sign
    | cons d ds =>
      have noDigit := (Decimal.scan?_eq_none_iff.mp (Option.map_eq_none_iff.mp noNumber)).1
      have noPoint : d ≠ '.' := by
        rintro rfl
        cases sign
      exact Option.map_eq_none_iff.mpr
        (Decimal.scan?_eq_none_iff.mpr ⟨noDigit, fun point => absurd point noPoint⟩)

end Stop

/-- A reading that fails stops in front of a character that begins no lexeme. -/
theorem stopped_of_scan {p : Place} {cs : List Char} {f : LexFailure}
    (h : scan p cs = .error f) :
    ∃ front rest, cs = front ++ f.character :: rest ∧ f.place = p.afterAll front ∧
      StartsNothing f.character rest ∧ (∀ p', ∃ ls, scan p' front = .ok ls) ∧
      Relation.ReflTransGen Turn cs (f.character :: rest) := by
  induction p, cs using scan.induct with
  | case1 p =>
    rw [scan] at h
    cases h
  | case2 p c tail separator ih =>
    rw [scan_separator separator] at h
    obtain ⟨front, rest, rfl, place, starts, reads, turns⟩ := ih h
    refine ⟨c :: front, rest, rfl, place, starts, ?_, .head (.separator separator) turns⟩
    intro p'
    rw [scan_separator separator]
    exact reads _
  | case3 p c tail separator none =>
    have apart : isSeparator c = false := by simpa using separator
    rw [scan_stop apart none] at h
    cases h
    exact ⟨[], tail, rfl, rfl, startsNothing_iff.mpr ⟨apart, none⟩, fun _ => ⟨[], by rw [scan]⟩,
      .refl⟩
  | case4 p c tail separator l rest found ih =>
    rw [scan_next found] at h
    cases more : scan (p.afterAll l.text) rest with
    | ok others =>
      rw [more] at h
      cases h
    | error e =>
      rw [more] at h
      cases h
      obtain ⟨front, rest', rfl, place, starts, reads, turns⟩ := ih more
      obtain ⟨split, _⟩ := text_append_of_next? found
      rw [← List.append_assoc] at split
      refine ⟨l.text ++ front, rest', split.symm, ?_, starts, ?_, .head (.lexeme found) turns⟩
      · rw [place, Place.afterAll, Place.afterAll, Place.afterAll, List.foldl_append]
      · intro p'
        rw [← split] at found
        obtain ⟨ls, read⟩ := reads (p'.afterAll l.text)
        rw [scan_next (next?_of_stop starts found), read]
        exact ⟨_, rfl⟩

end Lexeme

theorem Place.column_afterAll (cs : List Char) :
    (Place.start.afterAll cs).column = 1 + (cs.reverse.takeWhile fun c => c != '\n').length := by
  induction cs using List.reverseRecOn with
  | nil => rfl
  | append_singleton cs c ih =>
    have last : Place.start.afterAll (cs ++ [c]) = (Place.start.afterAll cs).after c := by
      simp [Place.afterAll]
    rw [last, List.reverse_append, Place.after]
    by_cases feed : c = '\n'
    · simp [feed]
    · simp [feed, ih]
      omega

/-- Reading a formula text takes turns until none is left. If that is the end of the text, the
lexemes tile the text and the tokens are their texts, references in capitals: nothing is lost but
separators. Else the reading stops in front of a character that begins no lexeme, what stands before
it reads on its own, and the failure tells where in its line the character stands. -/
theorem tokenize_tiles (text : String) :
    (∀ tokens, tokenize text = .ok tokens →
      Relation.ReflTransGen Lexeme.Turn (formulaBody text) [] ∧
      ∃ ls, Lexeme.Tiled (formulaBody text) ls ∧ tokens = ls.map Lexeme.token ∧
        ls.flatMap Lexeme.text = (formulaBody text).filter (fun c => !Lexeme.isSeparator c) ∧
        ∀ l ∈ ls,
          (Lexeme.IsReference l.text → l.token.toList = l.text.map Char.toUpper) ∧
          (¬ Lexeme.IsReference l.text → l.token.toList = l.text)) ∧
    (∀ f, tokenize text = .error f →
      ∃ front rest, formulaBody text = front ++ f.character :: rest ∧
        (∃ ls, Lexeme.scan .start front = .ok ls) ∧
        Lexeme.StartsNothing f.character rest ∧
        f.place.column = 1 + (front.reverse.takeWhile fun c => c != '\n').length ∧
        Relation.ReflTransGen Lexeme.Turn (formulaBody text) (f.character :: rest) ∧
        ∀ next, ¬ Lexeme.Turn (f.character :: rest) next) ∧
    Acc (fun rest cs => Lexeme.Turn cs rest) (formulaBody text) := by
  refine ⟨?_, ?_, Lexeme.turns_end.apply _⟩
  · intro tokens h
    rw [tokenize] at h
    cases scanned : Lexeme.scan .start (formulaBody text) with
    | error f =>
      rw [scanned] at h
      cases h
    | ok ls =>
      rw [scanned] at h
      cases h
      obtain ⟨tiled, turns⟩ := Lexeme.tiled_of_scan scanned
      refine ⟨turns, ls, tiled, rfl, tiled.text, ?_⟩
      intro l hl
      have kind := (tiled.formed l hl).kind_eq_reference_iff
      constructor
      · intro reference
        simp [Lexeme.token, kind.mpr reference]
      · intro other
        have otherKind : ¬ l.kind = .reference := fun reference => other (kind.mp reference)
        simp [Lexeme.token, otherKind]
  · intro f h
    rw [tokenize] at h
    cases scanned : Lexeme.scan .start (formulaBody text) with
    | ok ls =>
      rw [scanned] at h
      cases h
    | error e =>
      rw [scanned] at h
      cases h
      obtain ⟨front, rest, split, place, starts, reads, turns⟩ := Lexeme.stopped_of_scan scanned
      refine ⟨front, rest, split, reads .start, starts, ?_, turns, starts.no_turn⟩
      rw [place, Place.column_afterAll]

example : tokenize "=1e+ 1..5" = .ok ["1", "e", "+", "1.", ".5"] := by decide +kernel

example : tokenize "=A1B *\n2 .x" = .error ⟨'.', 2, 3⟩ := by decide +kernel

end FormulaSheet
