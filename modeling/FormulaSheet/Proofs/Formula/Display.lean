import FormulaSheet.Proofs.Formula.Tiling
import Mathlib.Data.List.Basic
/-!
Display text read again. The display puts spaces where a reading needs them and leaves none out that
it needs, so the lexemes of a formula's display are those of the formula, references in capitals.
-/

namespace FormulaSheet

open Text

namespace Lexeme

theorem scan_space (p : Place) (cs : List Char) : scan p (' ' :: cs) = scan (p.after ' ') cs :=
  scan_separator (by decide) p cs

theorem scan_formed {l : Lexeme} (h : l.Formed) {rest : List Char} (stop : isSign l ∨ Stopped rest)
    (p : Place) :
    scan p (l.text ++ rest) = (scan (p.afterAll l.text) rest).map (l :: ·) :=
  scan_next (next?_of_formed h stop) p

/-! The display of lexemes. -/

theorem toList_go (before : Option Token) (t : Token) (rest : List Token) :
    (displayFormula.go before (t :: rest)).toList =
      (if before.isSome && before != some "(" && t != ")" then [' '] else []) ++ t.toList ++
        (displayFormula.go (some t) rest).toList := by
  rw [displayFormula.go]
  simp only [String.toList_append]
  congr 2
  split <;> rfl

/-- Behind a token the display ends, goes on with a space or closes a parenthesis, unless the token
is a sign. -/
theorem stop_go {l : Lexeme} (h : l.Formed) {others : List Lexeme} :
    isSign l.shown ∨ Stopped (displayFormula.go (some l.token) (others.map token)).toList := by
  cases others with
  | nil =>
    right
    simp [Stopped, displayFormula.go]
  | cons next rest =>
    rw [List.map_cons, toList_go]
    by_cases opening : l.token = "("
    · left
      right
      apply h.shown.kind_of_parenthesis (c := '(') rfl
      rw [← toList_token, opening]
      rfl
    · right
      by_cases closing : next.token = ")"
      · rw [closing]
        simp [Stopped]
      · simp [Stopped, opening, closing]

theorem scan_go {ls : List Lexeme} (formed : ∀ l ∈ ls, l.Formed) (before : Option Token)
    (p : Place) :
    scan p (displayFormula.go before (ls.map token)).toList = .ok (ls.map shown) := by
  induction ls generalizing before p with
  | nil =>
    rw [List.map_nil, displayFormula.go, String.toList_empty, scan]
    rfl
  | cons l rest ih =>
    have first := formed l List.mem_cons_self
    have others := ih fun l' hl => formed l' (List.mem_cons_of_mem l hl)
    have read : ∀ p, scan p (l.token.toList ++
        (displayFormula.go (some l.token) (rest.map token)).toList) =
          .ok (l.shown :: rest.map shown) := by
      intro p
      rw [toList_token, scan_formed first.shown (stop_go first), others]
      rfl
    rw [List.map_cons, toList_go, List.append_assoc]
    split
    · rw [List.singleton_append, scan_space, read]
      rfl
    · rw [List.nil_append, read]
      rfl

/-! Nothing is lost at the ends. -/

theorem head?_go {ls : List Lexeme} (formed : ∀ l ∈ ls, l.Formed) :
    ∀ c ∈ (displayFormula.go none (ls.map token)).toList.head?, IsPlain c := by
  cases ls with
  | nil => simp [displayFormula.go]
  | cons l rest =>
    have first := (formed l List.mem_cons_self).shown
    intro c hc
    rw [List.map_cons, toList_go, toList_token] at hc
    cases text : l.shown.text with
    | nil => exact absurd text first.nonempty
    | cons d tail =>
      obtain rfl : d = c := by simpa [text] using hc
      exact first.plain d (by rw [text]; exact List.mem_cons_self)

theorem getLast?_go {ls : List Lexeme} (formed : ∀ l ∈ ls, l.Formed) (before : Option Token) :
    ∀ c ∈ (displayFormula.go before (ls.map token)).toList.getLast?, IsPlain c := by
  induction ls generalizing before with
  | nil => simp [displayFormula.go]
  | cons l rest ih =>
    have first := (formed l List.mem_cons_self).shown
    have others := ih fun l' hl => formed l' (List.mem_cons_of_mem l hl)
    intro c hc
    rw [List.map_cons, toList_go, toList_token, List.getLast?_append, Option.mem_def,
      Option.or_eq_some_iff] at hc
    rcases hc with last | ⟨-, last⟩
    · exact others _ c last
    · rw [List.getLast?_append, List.getLast?_eq_some_getLast first.nonempty,
        Option.some_or] at last
      exact first.plain c (Option.some.inj last ▸ List.getLast_mem first.nonempty)

theorem formulaBody_of_ends {text : String} (first : ∀ c ∈ text.toList.head?, IsPlain c)
    (last : ∀ c ∈ text.toList.getLast?, IsPlain c) : formulaBody text = text.toList := by
  unfold formulaBody
  rw [trim_of_ends (fun c hc => (first c hc).1) fun c hc => (last c hc).1]
  split
  · rename_i tail equals
    exact absurd rfl (first '=' (by rw [equals]; rfl)).2
  · rfl

theorem formulaBody_display {ls : List Lexeme} (formed : ∀ l ∈ ls, l.Formed) :
    formulaBody (displayFormula (ls.map token)) = (displayFormula (ls.map token)).toList :=
  formulaBody_of_ends (head?_go formed) (getLast?_go formed none)

end Lexeme

/-- The display of a formula that could be read is read as the same tokens. It loses nothing when it
is trimmed and freed of an equals sign, and its lexemes are of the classes of before. -/
theorem tokenize_displayFormula {text : String} {tokens : List Token}
    (readable : tokenize text = .ok tokens) :
    tokenize (displayFormula tokens) = .ok tokens ∧
      formulaBody (displayFormula tokens) = (displayFormula tokens).toList ∧
      ∃ ls ls', Lexeme.scan .start (formulaBody text) = .ok ls ∧
        Lexeme.scan .start (formulaBody (displayFormula tokens)) = .ok ls' ∧
        ls'.map Lexeme.kind = ls.map Lexeme.kind := by
  unfold tokenize at readable
  cases scanned : Lexeme.scan .start (formulaBody text) with
  | error failure =>
    rw [scanned] at readable
    cases readable
  | ok ls =>
    rw [scanned] at readable
    cases readable
    have formed := Lexeme.formed_of_scan scanned
    have body := Lexeme.formulaBody_display formed
    have again : Lexeme.scan .start (formulaBody (displayFormula (ls.map Lexeme.token))) =
        .ok (ls.map Lexeme.shown) := by
      rw [body]
      exact Lexeme.scan_go formed none .start
    refine ⟨?_, body, ls, _, rfl, again, ?_⟩
    · rw [tokenize, again]
      simp [Except.map, Lexeme.token_shown]
    · simp [Lexeme.shown]

/-- Numbers against words and other numbers, a reference in small letters, a word that a reference
begins, and a digit of another script. -/
theorem tokenize_displayFormula_of_neighbours :
    tokenize " =1.5.5 1e5e*(a01-b2c)+(٣" =
        .ok ["1.5", ".5", "1e5", "e", "*", "(", "A01", "-", "b2c", ")", "+", "(", "٣"] ∧
      displayFormula ["1.5", ".5", "1e5", "e", "*", "(", "A01", "-", "b2c", ")", "+", "(", "٣"] =
        "1.5 .5 1e5 e * (A01 - b2c) + (٣" ∧
      tokenize "1.5 .5 1e5 e * (A01 - b2c) + (٣" =
        .ok ["1.5", ".5", "1e5", "e", "*", "(", "A01", "-", "b2c", ")", "+", "(", "٣"] := by
  have readable : tokenize " =1.5.5 1e5e*(a01-b2c)+(٣" =
      .ok ["1.5", ".5", "1e5", "e", "*", "(", "A01", "-", "b2c", ")", "+", "(", "٣"] := by
    decide +kernel
  have display :
      displayFormula ["1.5", ".5", "1e5", "e", "*", "(", "A01", "-", "b2c", ")", "+", "(", "٣"] =
        "1.5 .5 1e5 e * (A01 - b2c) + (٣" := by decide +kernel
  have again := (tokenize_displayFormula readable).1
  rw [display] at again
  exact ⟨readable, display, again⟩

end FormulaSheet
