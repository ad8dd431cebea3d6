import FormulaSheet.Proofs.Formula.Lexemes
/-!
Number tokens against a grammar of decimal literals, which is about texts and not about how they are
read:

    Literal  := Sign Mantissa Scale
    Sign     := ['+' | '-']
    Mantissa := Digits ['.' [Digits]] | '.' Digits
    Scale    := [('e' | 'E') Sign Digits]

A literal has no blank. Reading takes every literal for a number, and a literal with a line feed
behind it as well.
-/

namespace FormulaSheet

open Text

namespace Decimal

/-- A digit or more, of any script. -/
inductive IsDigits : List Char → Prop
  | last {c : Char} (digit : isDigit c = true) : IsDigits [c]
  | more {c : Char} {ds : List Char} (digit : isDigit c = true) (rest : IsDigits ds) :
      IsDigits (c :: ds)

inductive IsSign : List Char → Prop
  | none : IsSign []
  | plus : IsSign ['+']
  | minus : IsSign ['-']

inductive IsMantissa : List Char → Prop
  | whole {ds : List Char} (digits : IsDigits ds) : IsMantissa ds
  | pointed {ds : List Char} (digits : IsDigits ds) : IsMantissa (ds ++ ['.'])
  | mixed {ds fs : List Char} (digits : IsDigits ds) (fraction : IsDigits fs) :
      IsMantissa (ds ++ '.' :: fs)
  | fraction {fs : List Char} (fraction : IsDigits fs) : IsMantissa ('.' :: fs)

inductive IsScale : List Char → Prop
  | none : IsScale []
  | power {mark : Char} {sign ds : List Char} (marked : mark = 'e' ∨ mark = 'E')
      (signed : IsSign sign) (digits : IsDigits ds) : IsScale (mark :: (sign ++ ds))

inductive IsLiteral : List Char → Prop
  | mk {sign mantissa scale : List Char} (signed : IsSign sign) (body : IsMantissa mantissa)
      (scaled : IsScale scale) : IsLiteral (sign ++ (mantissa ++ scale))

/-! The parts of a numeral. -/

theorem isDigits_iff {ds : List Char} :
    IsDigits ds ↔ ds ≠ [] ∧ ∀ c ∈ ds, isDigit c = true := by
  constructor
  · intro h
    induction h with
    | last digit => simpa using digit
    | more digit rest ih => exact ⟨List.cons_ne_nil _ _, List.forall_mem_cons.mpr ⟨digit, ih.2⟩⟩
  · rintro ⟨nonempty, digits⟩
    induction ds with
    | nil => exact absurd rfl nonempty
    | cons c ds ih =>
      obtain ⟨digit, behind⟩ := List.forall_mem_cons.mp digits
      by_cases more : ds = []
      · subst more
        exact .last digit
      · exact .more digit (ih more behind)

theorem isSign_iff {cs : List Char} :
    IsSign cs ↔ ∃ sign : Option Char, (∀ s ∈ sign, s = '+' ∨ s = '-') ∧ sign.toList = cs := by
  constructor
  · intro h
    cases h with
    | none => exact ⟨none, by simp, rfl⟩
    | plus => exact ⟨some '+', by simp, rfl⟩
    | minus => exact ⟨some '-', by simp, rfl⟩
  · rintro ⟨sign, signs, rfl⟩
    cases sign with
    | none => exact .none
    | some s =>
      rcases signs s rfl with rfl | rfl
      · exact .plus
      · exact .minus

theorem isMantissa_iff {cs : List Char} :
    IsMantissa cs ↔ ∃ n : Numeral, n.Formed ∧ n.exponent = none ∧ n.chars = cs := by
  constructor
  · intro h
    cases h with
    | whole digits =>
      obtain ⟨nonempty, digits⟩ := isDigits_iff.mp digits
      exact ⟨⟨cs, none, none⟩, ⟨digits, by simp, by simpa using nonempty, by simp⟩, rfl,
        by simp [Numeral.chars]⟩
    | @pointed ds digits =>
      obtain ⟨nonempty, digits⟩ := isDigits_iff.mp digits
      exact ⟨⟨ds, some [], none⟩, ⟨digits, by simp, by simpa using nonempty, by simp⟩, rfl,
        by simp [Numeral.chars]⟩
    | @mixed ds fs digits fraction =>
      obtain ⟨nonempty, digits⟩ := isDigits_iff.mp digits
      obtain ⟨_, fraction⟩ := isDigits_iff.mp fraction
      exact ⟨⟨ds, some fs, none⟩, ⟨digits, by simpa using fraction, by simp [nonempty], by simp⟩,
        rfl, by simp [Numeral.chars]⟩
    | @fraction fs fraction =>
      obtain ⟨nonempty, fraction⟩ := isDigits_iff.mp fraction
      exact ⟨⟨[], some fs, none⟩,
        ⟨by simp, by simpa using fraction, by simpa using nonempty, by simp⟩, rfl,
        by simp [Numeral.chars]⟩
  · rintro ⟨⟨whole, fraction, exponent⟩, formed, rfl, rfl⟩
    by_cases none : whole = []
    · subst none
      cases fraction with
      | none => exact absurd rfl formed.nonempty
      | some fs =>
        have digits : IsDigits fs := isDigits_iff.mpr ⟨formed.nonempty, formed.fraction fs rfl⟩
        simpa [Numeral.chars] using IsMantissa.fraction digits
    · have digits : IsDigits whole := isDigits_iff.mpr ⟨none, formed.whole⟩
      cases fraction with
      | none => simpa [Numeral.chars] using IsMantissa.whole digits
      | some fs =>
        by_cases bare : fs = []
        · subst bare
          simpa [Numeral.chars] using IsMantissa.pointed digits
        · have behind : IsDigits fs := isDigits_iff.mpr ⟨bare, formed.fraction fs rfl⟩
          simpa [Numeral.chars] using IsMantissa.mixed digits behind

theorem isScale_iff {cs : List Char} :
    IsScale cs ↔
      ∃ e : Option Exponent, (∀ e' ∈ e, e'.Formed) ∧ (e.map Exponent.chars).getD [] = cs := by
  constructor
  · intro h
    cases h with
    | none => exact ⟨none, by simp, rfl⟩
    | @power mark sign ds marked signed digits =>
      obtain ⟨s, signs, rfl⟩ := isSign_iff.mp signed
      obtain ⟨nonempty, digits⟩ := isDigits_iff.mp digits
      refine ⟨some ⟨mark, s, ds⟩, ?_, rfl⟩
      rintro e ⟨⟩
      exact ⟨marked, signs, digits, nonempty⟩
  · rintro ⟨e, formed, rfl⟩
    cases e with
    | none => exact .none
    | some e =>
      have h := formed e rfl
      exact .power h.mark (isSign_iff.mpr ⟨e.sign, h.sign, rfl⟩)
        (isDigits_iff.mpr ⟨h.nonempty, h.digits⟩)

/-- The literals are the numerals with or without a sign. -/
theorem isLiteral_iff {cs : List Char} :
    IsLiteral cs ↔ ∃ (sign : Option Char) (n : Numeral), (∀ s ∈ sign, s = '+' ∨ s = '-') ∧
      n.Formed ∧ sign.toList ++ n.chars = cs := by
  constructor
  · rintro ⟨signed, body, scaled⟩
    obtain ⟨sign, signs, rfl⟩ := isSign_iff.mp signed
    obtain ⟨⟨whole, fraction, exponent⟩, formed, rfl, rfl⟩ := isMantissa_iff.mp body
    obtain ⟨e, exponent, rfl⟩ := isScale_iff.mp scaled
    refine ⟨sign, ⟨whole, fraction, e⟩, signs,
      ⟨formed.whole, formed.fraction, formed.nonempty, exponent⟩, ?_⟩
    rw [Numeral.chars_mk]
  · rintro ⟨sign, ⟨whole, fraction, e⟩, signs, formed, rfl⟩
    have mantissa : IsMantissa (Numeral.mk whole fraction none).chars :=
      isMantissa_iff.mpr ⟨⟨whole, fraction, none⟩,
        ⟨formed.whole, formed.fraction, formed.nonempty, by simp⟩, rfl, rfl⟩
    rw [Numeral.chars_mk]
    exact .mk (isSign_iff.mpr ⟨sign, signs, rfl⟩) mantissa
      (isScale_iff.mpr ⟨e, formed.exponent, rfl⟩)

theorem isBlank_of_isLiteral {cs : List Char} (h : IsLiteral cs) :
    ∀ c ∈ cs, isBlank c = false := by
  obtain ⟨sign, n, signs, formed, rfl⟩ := isLiteral_iff.mp h
  intro c hc
  rcases List.mem_append.mp hc with hc | hc
  · rcases signs c (Option.mem_toList.mp hc) with rfl | rfl
    · decide
    · decide
  · exact (Lexeme.plain_of_numeral formed c hc).1

theorem notMem_of_isBlank {cs : List Char} {c : Char} (h : IsLiteral cs)
    (blank : isBlank c = true) : c ∉ cs := by
  intro hc
  rw [isBlank_of_isLiteral h c hc] at blank
  cases blank

end Decimal

open Decimal

theorem isNumber_iff_literal {t : Token} :
    Token.isNumber t = true ↔ IsLiteral t.toList ∨ ∃ cs, IsLiteral cs ∧ t.toList = cs ++ ['\n'] := by
  rw [Token.isNumber, Token.number?, Option.isSome_iff_exists]
  constructor
  · rintro ⟨x, reads⟩
    obtain ⟨sign, n, rest, signs, formed, line, text⟩ := formed_of_readNumber? reads
    have literal : IsLiteral (sign.toList ++ n.chars) :=
      isLiteral_iff.mpr ⟨sign, n, signs, formed, rfl⟩
    rw [← List.append_assoc] at text
    rcases line with rfl | rfl
    · rw [List.append_nil] at text
      exact .inl (text ▸ literal)
    · exact .inr ⟨_, literal, text.symm⟩
  · rintro (literal | ⟨cs, literal, text⟩)
    · obtain ⟨sign, n, signs, formed, text⟩ := isLiteral_iff.mp literal
      have read := readNumber?_of_formed signs formed (.inl rfl)
      rw [List.append_nil, text] at read
      exact ⟨_, read⟩
    · obtain ⟨sign, n, signs, formed, rfl⟩ := isLiteral_iff.mp literal
      have read := readNumber?_of_formed signs formed (.inr rfl)
      rw [← List.append_assoc, ← text] at read
      exact ⟨_, read⟩

/-- Number tokens are the decimal literals, and the literals in front of one line feed; they are the
tokens that have a number. No literal has a blank, so that the only blank in a number token is a
line feed at its end. -/
theorem numbers_are_literals (t : Token) :
    (Token.isNumber t = true ↔
      IsLiteral t.toList ∨ ∃ cs, IsLiteral cs ∧ t.toList = cs ++ ['\n']) ∧
    (Token.number? t ≠ none ↔ Token.isNumber t = true) ∧
    (IsLiteral t.toList → ∀ c ∈ t.toList, isBlank c = false) ∧
    ∀ front c behind, Token.isNumber t = true → t.toList = front ++ c :: behind →
      isBlank c = true → c = '\n' ∧ behind = [] ∧ IsLiteral front := by
  refine ⟨isNumber_iff_literal, ?_, isBlank_of_isLiteral, ?_⟩
  · rw [Token.isNumber, Option.isSome_iff_ne_none]
  · intro front c behind number text blank
    rcases isNumber_iff_literal.mp number with literal | ⟨cs, literal, line⟩
    · exact absurd (by simp [text]) (notMem_of_isBlank literal blank)
    · rw [text] at line
      rcases List.eq_nil_or_concat behind with rfl | ⟨more, d, rfl⟩
      · obtain ⟨rfl, feed⟩ := List.append_inj' line rfl
        cases feed
        exact ⟨rfl, rfl, literal⟩
      · -- the blank would be inside the literal
        rw [List.concat_eq_append, ← List.cons_append, ← List.append_assoc] at line
        obtain ⟨rfl, _⟩ := List.append_inj' line rfl
        exact absurd (by simp) (notMem_of_isBlank literal blank)

/-- A number token that is no literal: a digit and a line feed, which is a blank. -/
theorem number_before_line_feed :
    Token.isNumber "1\n" = true ∧ ¬ IsLiteral "1\n".toList ∧
      ∃ c ∈ "1\n".toList, isBlank c = true := by
  have feed : '\n' ∈ "1\n".toList := by decide +kernel
  have one : IsLiteral ['1'] := .mk .none (.whole (.last (by decide))) .none
  refine ⟨isNumber_iff_literal.mpr (.inr ⟨['1'], one, by decide +kernel⟩), ?_, '\n', feed, by decide⟩
  intro literal
  exact notMem_of_isBlank literal (by decide) feed

end FormulaSheet
