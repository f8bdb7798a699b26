import LoxExpr.Expr.Reading

/-!
# Progress through a token list

A reading moves forward, and it never goes behind a token that ends the input.
`Passes` relates a place in a token list to a later one, and `Reply.Proceeds`
says the same of the place at which a reply stops.  The number of tokens before
the end, `pending`, is what the budget of a reading is measured by.
-/

namespace LoxExpr

namespace Reading

/-- The number of tokens before the end of input. -/
def pending : List Token → Nat
  | [] => 0
  | token :: rest =>
      if token.kind = .endOfInput then 0 else pending rest + 1

theorem pending_le_length (tokens : List Token) :
    pending tokens ≤ tokens.length := by
  induction tokens with
  | nil => exact Nat.le_refl 0
  | cons token rest induction =>
      rw [pending]
      split
      · exact Nat.zero_le _
      · simpa using induction

theorem pending_append {passed : List Token}
    (inner : ∀ token ∈ passed, token.kind ≠ .endOfInput)
    (rest : List Token) :
    pending (passed ++ rest) = passed.length + pending rest := by
  induction passed with
  | nil => simp
  | cons token passed induction =>
      have headInner : token.kind ≠ .endOfInput := inner token (by simp)
      have tailInner : ∀ later ∈ passed, later.kind ≠ .endOfInput := by
        intro later member
        exact inner later (by simp [member])
      simp only [List.cons_append, pending, if_neg headInner,
        induction tailInner, List.length_cons]
      omega

theorem pending_eq_zero_iff {tokens : List Token} :
    pending tokens = 0 ↔ (peek tokens).kind = .endOfInput := by
  cases tokens with
  | nil => simp [pending, peek, Token.endOfInput]
  | cons token rest =>
      by_cases isEnd : token.kind = .endOfInput <;>
        simp [pending, peek, isEnd]

/-- A token list is split at its first end in one way only. -/
theorem append_inj_of_end {passed passed' rest rest' : List Token}
    (same : passed ++ rest = passed' ++ rest')
    (inner : ∀ token ∈ passed, token.kind ≠ .endOfInput)
    (inner' : ∀ token ∈ passed', token.kind ≠ .endOfInput)
    (isEnd : (peek rest).kind = .endOfInput)
    (isEnd' : (peek rest').kind = .endOfInput) :
    passed = passed' ∧ rest = rest' := by
  have counted := congrArg pending same
  rw [pending_append inner, pending_append inner',
    pending_eq_zero_iff.mpr isEnd, pending_eq_zero_iff.mpr isEnd'] at counted
  exact List.append_inj same counted

theorem peek_cons (token : Token) (rest : List Token) :
    peek (token :: rest) = token := rfl

theorem advance_of_end {tokens : List Token}
    (isEnd : (peek tokens).kind = .endOfInput) :
    advance tokens = tokens := by
  simp [advance, isEnd]

theorem advance_cons {token : Token}
    (different : token.kind ≠ .endOfInput) (rest : List Token) :
    advance (token :: rest) = rest := by
  simp [advance, peek_cons, different]

theorem cons_advance {tokens : List Token}
    (different : (peek tokens).kind ≠ .endOfInput) :
    peek tokens :: advance tokens = tokens := by
  cases tokens with
  | nil => exact absurd rfl different
  | cons token rest =>
      have headDifferent : token.kind ≠ .endOfInput := different
      rw [advance_cons headDifferent, peek_cons]

/-- From the place `tokens` to the later place `rest` there are at least
`least` tokens, and none of them ends the input. -/
def Passes (least : Nat) (tokens rest : List Token) : Prop :=
  ∃ passed, tokens = passed ++ rest ∧ least ≤ passed.length ∧
    ∀ token ∈ passed, token.kind ≠ .endOfInput

namespace Passes

theorem refl (tokens : List Token) : Passes 0 tokens tokens :=
  ⟨[], rfl, Nat.le_refl 0, by simp⟩

theorem trans {first second : Nat} {tokens middle rest : List Token}
    (earlier : Passes first tokens middle)
    (later : Passes second middle rest) :
    Passes (first + second) tokens rest := by
  obtain ⟨passed, rfl, enough, inner⟩ := earlier
  obtain ⟨passed', rfl, enough', inner'⟩ := later
  refine ⟨passed ++ passed', by simp, ?_, ?_⟩
  · rw [List.length_append]
    omega
  · intro token member
    rcases List.mem_append.mp member with before | after
    · exact inner token before
    · exact inner' token after

theorem weaken {fewer least : Nat} {tokens rest : List Token}
    (passes : Passes least tokens rest) (le : fewer ≤ least) :
    Passes fewer tokens rest := by
  obtain ⟨passed, split, enough, inner⟩ := passes
  exact ⟨passed, split, Nat.le_trans le enough, inner⟩

theorem pending_le {least : Nat} {tokens rest : List Token}
    (passes : Passes least tokens rest) :
    pending rest + least ≤ pending tokens := by
  obtain ⟨passed, rfl, enough, inner⟩ := passes
  rw [pending_append inner]
  omega

end Passes

theorem passes_advance {tokens : List Token}
    (different : (peek tokens).kind ≠ .endOfInput) :
    Passes 1 tokens (advance tokens) := by
  refine ⟨[peek tokens], (cons_advance different).symm, Nat.le_refl 1, ?_⟩
  intro token member
  rw [List.mem_singleton.mp member]
  exact different

theorem pending_advance {tokens : List Token}
    (different : (peek tokens).kind ≠ .endOfInput) :
    pending (advance tokens) < pending tokens :=
  (passes_advance different).pending_le

theorem passes_advance_zero (tokens : List Token) :
    Passes 0 tokens (advance tokens) := by
  by_cases isEnd : (peek tokens).kind = .endOfInput
  · rw [advance_of_end isEnd]
    exact Passes.refl tokens
  · exact (passes_advance isEnd).weaken (Nat.zero_le 1)

namespace Reply

/-- A reply that came in spite of the budget, stopping behind at least `least`
tokens if it is a tree.  A refusal is about the token at which it stops. -/
def Proceeds (least : Nat) (tokens : List Token) : Reply → Prop
  | .read _ rest => Passes least tokens rest
  | .refused mismatch rest =>
      Passes 0 tokens rest ∧ mismatch.found = peek rest
  | .exhausted => False

theorem Proceeds.behind {first least : Nat} {tokens start : List Token}
    {reply : Reply} (passes : Passes first tokens start)
    (proceeds : reply.Proceeds least start) :
    reply.Proceeds (first + least) tokens := by
  cases reply with
  | read tree rest => exact passes.trans proceeds
  | refused mismatch rest =>
      exact ⟨(passes.trans proceeds.1).weaken (Nat.zero_le _), proceeds.2⟩
  | exhausted => exact proceeds

theorem Proceeds.weaken {fewer least : Nat} {tokens : List Token}
    {reply : Reply} (proceeds : reply.Proceeds least tokens)
    (le : fewer ≤ least) : reply.Proceeds fewer tokens := by
  cases reply with
  | read tree rest => exact Passes.weaken proceeds le
  | refused mismatch rest => exact proceeds
  | exhausted => exact proceeds

theorem Proceeds.ne_exhausted {least : Nat} {tokens : List Token}
    {reply : Reply} (proceeds : reply.Proceeds least tokens) :
    reply ≠ .exhausted := by
  rintro rfl
  exact proceeds

/-- What follows a reply matters only at the places at which it can stop. -/
theorem Proceeds.andThen_congr {least : Nat} {tokens : List Token}
    {reply : Reply} {next next' : Expr → List Token → Reply}
    (proceeds : reply.Proceeds least tokens)
    (agree : ∀ tree rest, Passes least tokens rest →
      next tree rest = next' tree rest) :
    reply.andThen next = reply.andThen next' := by
  cases reply with
  | read tree rest => exact agree tree rest proceeds
  | refused mismatch rest => rfl
  | exhausted => rfl

/-- Two replies are settled when they are one and the same, and it
proceeds. -/
def Settled (least : Nat) (tokens : List Token) (reply reply' : Reply) :
    Prop :=
  reply = reply' ∧ reply.Proceeds least tokens

namespace Settled

theorem read {least : Nat} {tokens rest : List Token} (tree : Expr)
    (passes : Passes least tokens rest) :
    Settled least tokens (.read tree rest) (.read tree rest) :=
  ⟨rfl, passes⟩

theorem refuse (least : Nat) (expected : Expectation) (tokens : List Token) :
    Settled least tokens (refuse expected tokens) (refuse expected tokens) :=
  ⟨rfl, Passes.refl tokens, rfl⟩

theorem weaken {fewer least : Nat} {tokens : List Token}
    {reply reply' : Reply} (settled : Settled least tokens reply reply')
    (le : fewer ≤ least) : Settled fewer tokens reply reply' :=
  ⟨settled.1, settled.2.weaken le⟩

theorem behind {first least : Nat} {tokens start : List Token}
    {reply reply' : Reply} (passes : Passes first tokens start)
    (settled : Settled least start reply reply') :
    Settled (first + least) tokens reply reply' :=
  ⟨settled.1, settled.2.behind passes⟩

theorem andThen {least : Nat} {tokens : List Token}
    {reply reply' : Reply} {next next' : Expr → List Token → Reply}
    (settled : Settled least tokens reply reply')
    (continues : ∀ tree rest, Passes least tokens rest →
      Settled 0 rest (next tree rest) (next' tree rest)) :
    Settled least tokens (reply.andThen next) (reply'.andThen next') := by
  obtain ⟨rfl, proceeds⟩ := settled
  cases reply with
  | read tree rest => exact (continues tree rest proceeds).behind proceeds
  | refused mismatch rest => exact ⟨rfl, proceeds⟩
  | exhausted => exact ⟨rfl, proceeds⟩

theorem expect {kind : Token.Kind} {expected : Expectation}
    {tokens : List Token} {next next' : List Token → Reply}
    (inner : kind ≠ .endOfInput)
    (continues : Passes 1 tokens (advance tokens) →
      Settled 0 (advance tokens) (next (advance tokens))
        (next' (advance tokens))) :
    Settled 1 tokens (expect kind expected tokens next)
      (expect kind expected tokens next') := by
  rw [Reading.expect, Reading.expect]
  split
  · next isKind =>
      have passes := passes_advance (isKind ▸ inner)
      exact (continues passes).behind passes
  · exact refuse 1 expected tokens

end Settled

theorem andThen_assoc (reply : Reply)
    (next later : Expr → List Token → Reply) :
    (reply.andThen next).andThen later =
      reply.andThen fun tree rest => (next tree rest).andThen later := by
  cases reply <;> rfl

theorem andThen_read (reply : Reply) : reply.andThen .read = reply := by
  cases reply <;> rfl

theorem andThen_eq_read_iff {reply : Reply}
    {next : Expr → List Token → Reply} {tree : Expr} {rest : List Token} :
    reply.andThen next = .read tree rest ↔
      ∃ first middle, reply = .read first middle ∧
        next first middle = .read tree rest := by
  cases reply with
  | read first middle =>
      constructor
      · intro result
        exact ⟨first, middle, rfl, result⟩
      · rintro ⟨_, _, same, result⟩
        cases same
        exact result
  | refused mismatch rest => simp [andThen]
  | exhausted => simp [andThen]

end Reply

end Reading

end LoxExpr
