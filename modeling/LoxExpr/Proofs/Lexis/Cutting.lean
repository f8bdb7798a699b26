import LoxExpr.Proofs.Lexis.Coverage

/-!
# Cutting by the rules

A piece without a flaw is itself a word of a rule.  As it covers every other
word that begins the text, the text begins, according to the rules, with the
piece that is cut off, and with no other.
-/

namespace LoxExpr

namespace Lexis

open Piece

section Soundness

theorem forall_of_takeWhile {p : Char → Bool} (text : List Char) :
    ∀ c ∈ text.takeWhile p, p c = true :=
  List.all_eq_true.mp List.all_takeWhile

theorem comment_sound (tail : List Char) :
    Rule (cutComment '/' ('/' :: tail)).1.text .blank := by
  have inner := forall_of_takeWhile (p := (· != '\n')) tail
  simpa [cutComment] using Rule.comment (by simpa using inner)

theorem digits_of_takeWhile {head : Char} (digit : Digit head)
    (tail : List Char) :
    ∀ c ∈ head :: tail.takeWhile Char.isDigit, Digit c := by
  intro c member
  rcases List.mem_cons.mp member with rfl | later
  · exact digit
  · exact isDigit_iff.mp (forall_of_takeWhile tail c later)

theorem numeral_sound {head : Char} (digit : Digit head)
    (tail : List Char) :
    Rule (cutNumeral head tail).1.text (cutNumeral head tail).1.role := by
  have inside := digits_of_takeWhile digit tail
  rw [role_cutNumeral]
  unfold cutNumeral takeFraction
  split
  · next decimal others _ =>
      by_cases isDigit : decimal.isDigit = true
      · have decimalsInside :=
          digits_of_takeWhile (isDigit_iff.mp isDigit) others
        simp only [isDigit, if_true, ofNumeral_fraction inside]
        exact Rule.fraction (by simp) inside (by simp) decimalsInside
      · simp only [isDigit, Bool.false_eq_true, if_false, List.append_nil,
          ofNumeral_integer inside]
        exact Rule.integer (by simp) inside
  · simp only [List.append_nil, ofNumeral_integer inside]
    exact Rule.integer (by simp) inside

theorem name_sound {head : Char} (letter : Letter head)
    (tail : List Char) :
    Rule (cutName head tail).1.text (cutName head tail).1.role := by
  have inside : ∀ c ∈ tail.takeWhile continuesName, Letter c ∨ Digit c := by
    intro c member
    exact continuesName_iff.mp (forall_of_takeWhile tail c member)
  rw [role_cutName]
  by_cases reserved : ∃ word : Keyword, word.word =
      String.ofList (head :: tail.takeWhile continuesName)
  · obtain ⟨word, spelled⟩ := reserved
    have kind := nameKind_of_reserved spelled
    simp only [cutName, kind]
    exact Rule.keyword word letter inside spelled
  · have free := not_exists.mp reserved
    have kind := nameKind_of_free free
    simp only [cutName, kind]
    exact Rule.identifier letter inside free

/-- A piece and what is left of `head :: tail` are what the rules ask for, if
a piece that is no word of a rule is a flaw that begins like the text. -/
def Explained (head : Char) (tail : List Char)
    (result : Piece × List Char) : Prop :=
  Rule result.1.text result.1.role ∨
    (head = '"' ∧ result = (⟨'"' :: tail, .flawed .unterminated⟩, [])) ∨
    (head ≠ '"' ∧
      result = (⟨[head], .flawed (.unexpected head)⟩, tail))

theorem string_explained (tail : List Char) :
    Explained '"' tail (cutString tail) := by
  have whole : tail.takeWhile (· != '"') ++ tail.dropWhile (· != '"') =
      tail := List.takeWhile_append_dropWhile
  rw [cutString]
  cases remaining : tail.dropWhile (· != '"') with
  | nil =>
      right
      left
      rw [remaining, List.append_nil] at whole
      exact ⟨rfl, by simp only [whole]⟩
  | cons quote rest =>
      left
      have stops := List.head?_dropWhile_not (· != '"') tail
      simp only [remaining, List.head?_cons, bne_eq_false_iff_eq] at stops
      subst stops
      have inner := forall_of_takeWhile (p := (· != '"')) tail
      exact Rule.string (by simpa using inner)

theorem symbol_explained {head : Char} (notQuote : head ≠ '"')
    (tail : List Char) : Explained head tail (cutSymbol head tail) := by
  rw [cutSymbol]
  cases pair : tail.head?.bind (pairSymbol? head) with
  | some kind =>
      left
      cases tail with
      | nil => cases pair
      | cons second rest =>
          exact Rule.symbol (mem_symbols_of_pairSymbol? pair)
  | none =>
      cases single : symbol? head with
      | some kind =>
          left
          exact Rule.symbol (mem_symbols_of_symbol? single)
      | none =>
          right
          right
          exact ⟨notQuote, rfl⟩

theorem cut_explained (head : Char) (tail : List Char) :
    Explained head tail (cut head tail) := by
  by_cases blank : Blank head
  · left
    rw [cut_of_blank blank]
    exact Rule.blank blank
  by_cases isQuote : head = '"'
  · rw [isQuote, cut_quote]
    exact string_explained tail
  by_cases digit : Digit head
  · left
    rw [cut_of_digit digit]
    exact numeral_sound digit tail
  by_cases letter : Letter head
  · left
    rw [cut_of_letter letter]
    exact name_sound letter tail
  by_cases comment : head = '/' ∧ tail.head? = some '/'
  · obtain ⟨rfl, second⟩ := comment
    obtain ⟨rest, rfl⟩ := List.head?_eq_some_iff.mp second
    left
    rw [cut_slashes]
    exact comment_sound rest
  · rw [cut_of_other blank isQuote digit letter comment]
    exact symbol_explained isQuote tail

end Soundness

section Beginning

variable {head : Char} {tail : List Char}

theorem Rule.covers_of_prefix {word : List Char} {role : Role}
    (rule : Rule word role) (begins : word <+: head :: tail) :
    Covers (cut head tail).1 word role := by
  obtain ⟨first, others, rfl⟩ := List.exists_cons_of_ne_nil rule.ne_nil
  obtain ⟨rest, split⟩ := begins
  cases split
  exact rule.covers rest

theorem cut_begins_text (head : Char) (tail : List Char) :
    (cut head tail).1.text <+: head :: tail :=
  ⟨(cut head tail).2, cut_text head tail⟩

theorem unmatched_of_flawed {flaw : Flaw}
    (flawed : (cut head tail).1.role = .flawed flaw) :
    Unmatched (head :: tail) := by
  intro word role rule begins
  rcases rule.covers_of_prefix begins with exact | ⟨_, sound⟩
  · rw [exact] at flawed
    exact rule.ne_flawed flaw flawed
  · exact sound flaw flawed

theorem begins_cut (head : Char) (tail : List Char) :
    Begins (head :: tail) (cut head tail).1 (cut head tail).2 := by
  rcases cut_explained head tail with rule | ⟨rfl, result⟩ |
    ⟨notQuote, result⟩
  · have longest : Begins ((cut head tail).1.text ++ (cut head tail).2)
        (cut head tail).1 (cut head tail).2 := by
      apply Begins.longest rule
      intro other role' otherRule begins
      rw [cut_text] at begins
      rcases otherRule.covers_of_prefix begins with same | ⟨shorter, _⟩
      · rw [same]
      · exact Nat.le_of_lt shorter
    rwa [cut_text] at longest
  · have unmatched : Unmatched ('"' :: tail) :=
      unmatched_of_flawed (by rw [result])
    rw [result]
    exact Begins.unterminated unmatched
  · have unmatched : Unmatched (head :: tail) :=
      unmatched_of_flawed (by rw [result])
    rw [result]
    exact Begins.unexpected unmatched notQuote

/-- A text begins in one way only. -/
theorem Begins.eq_cut {piece : Piece} {rest : List Char}
    (begins : Begins (head :: tail) piece rest) :
    cut head tail = (piece, rest) := by
  generalize whole : head :: tail = text at begins
  cases begins with
  | @longest word rest role rule longest =>
      have covers : Covers (cut head tail).1 word role := by
        apply rule.covers_of_prefix
        rw [whole]
        exact List.prefix_append word rest
      have piece : (cut head tail).1 = ⟨word, role⟩ := by
        rcases covers with same | ⟨shorter, sound⟩
        · exact same
        · rcases cut_explained head tail with cutRule | ⟨_, result⟩ |
            ⟨_, result⟩
          · have bounded := longest _ _ cutRule
              (whole ▸ cut_begins_text head tail)
            omega
          · exact absurd (by rw [result]) (sound .unterminated)
          · exact absurd (by rw [result]) (sound (.unexpected head))
      have remaining := cut_text head tail
      rw [piece, whole] at remaining
      exact Prod.ext piece (List.append_cancel_left remaining)
  | unterminated unmatched =>
      cases whole
      rcases cut_explained '"' tail with rule | ⟨_, result⟩ | ⟨other, _⟩
      · exact absurd (cut_begins_text '"' tail) (unmatched _ _ rule)
      · exact result
      · exact absurd rfl other
  | unexpected unmatched notQuote =>
      cases whole
      rcases cut_explained head tail with rule | ⟨isQuote, _⟩ | ⟨_, result⟩
      · exact absurd (cut_begins_text head tail) (unmatched _ _ rule)
      · exact absurd isQuote notQuote
      · exact result

end Beginning

end Lexis

end LoxExpr
