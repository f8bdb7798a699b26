import LoxExpr.Proofs.Reading.Behind
import LoxExpr.Proofs.Reading.Strict

/-!
# Histories of a reader

A reader can be asked for expressions any number of times, in any order, and
also after refusals.  Every request leaves the tokens as they are and moves the
position forward, up to the first end of input at most.  A tree is always
behind a consumed token, and a refusal is about the token at the new position.
What stands behind an end has no influence on any of the answers.
-/

namespace LoxExpr

namespace Reading

theorem HasEnd.behind {least : Nat} {tokens rest : List Token}
    (hasEnd : HasEnd tokens) (passes : Passes least tokens rest) :
    HasEnd rest := by
  obtain ⟨last, member, isEnd⟩ := hasEnd
  obtain ⟨passed, rfl, _, inner⟩ := passes
  rcases List.mem_append.mp member with before | after
  · exact absurd isEnd (inner last before)
  · exact ⟨last, after, isEnd⟩

/-- The first end of a token list stands behind the pending tokens. -/
theorem HasEnd.getElem?_pending {tokens : List Token}
    (hasEnd : HasEnd tokens) :
    ∃ last, tokens[pending tokens]? = some last ∧
      last.kind = .endOfInput := by
  induction tokens with
  | nil => simp [HasEnd] at hasEnd
  | cons token rest induction =>
      by_cases isEnd : token.kind = .endOfInput
      · exact ⟨token, by simp [pending, isEnd], isEnd⟩
      · have later : HasEnd rest := by
          have moved := hasEnd.advance
          rwa [advance_cons isEnd] at moved
        simpa [pending, isEnd] using induction later

end Reading

namespace Reader

open Reading

/-- The requests are answered by the reading tasks that consume a token, but
for one that asks for the end as well. -/
theorem eq_whole_or_task (entry : Entry) :
    entry = .whole ∨ ∃ task : Task, task.gain = 1 ∧
      ∀ budget tokens, reply budget tokens entry =
        task.reply budget tokens := by
  cases entry with
  | whole => exact .inl rfl
  | expression => exact .inr ⟨.expression, rfl, fun _ _ => rfl⟩
  | operand => exact .inr ⟨.operand, rfl, fun _ _ => rfl⟩
  | group => exact .inr ⟨.group, rfl, fun _ _ => rfl⟩
  | signed => exact .inr ⟨.signed, rfl, fun _ _ => rfl⟩
  | climb least => exact .inr ⟨.climb least, rfl, fun _ _ => rfl⟩

section Replies

variable {budget budget' : Nat} {tokens : List Token}
  (enough : budgetFor tokens ≤ budget) (enough' : budgetFor tokens ≤ budget')

include enough enough'

theorem task_settled (task : Task) :
    Reply.Settled task.gain tokens (task.reply budget tokens)
      (task.reply budget' tokens) := by
  rw [reply_eq_answer enough, reply_eq_answer enough']
  exact ⟨rfl, climbing.answer_proceeds task tokens⟩

/-- The reply to a request does not depend on the budget, and a tree is behind
a consumed token. -/
theorem reply_settled (entry : Entry) :
    Reply.Settled 1 tokens (reply budget tokens entry)
      (reply budget' tokens entry) := by
  rcases eq_whole_or_task entry with rfl | ⟨task, gain, serves⟩
  · apply (task_settled enough enough' .expression).andThen
    intro tree rest _
    split
    · exact .read tree (Passes.refl rest)
    · exact .refuse 0 .endOfInput rest
  · rw [serves, serves, ← gain]
    exact task_settled enough enough' task

end Replies

/-- The budget that a reader grants is enough for the reply to proceed. -/
theorem reply_proceeds (tokens : List Token) (entry : Entry) :
    (reply (budgetFor tokens) tokens entry).Proceeds 1 tokens :=
  (reply_settled (Nat.le_refl _) (Nat.le_refl _) entry).2

theorem peek_of_whole {tokens rest : List Token} {tree : Expr}
    {budget : Nat} (result : reply budget tokens .whole = .read tree rest) :
    (peek rest).kind = .endOfInput := by
  obtain ⟨first, middle, _, ended⟩ := Reply.andThen_eq_read_iff.mp result
  by_cases atEnd : isAtEnd middle = true
  · rw [if_pos atEnd] at ended
    cases ended
    simpa [isAtEnd] using atEnd
  · rw [if_neg atEnd] at ended
    cases ended

/-- No token before the position ends the input, but a later one does. -/
structure Sound (reader : Reader) : Prop where
  passes : Passes 0 reader.tokens reader.rest
  hasEnd : HasEnd reader.tokens

theorem sound_ofTokens (tokens : List Token) : (ofTokens tokens).Sound :=
  { passes := Passes.refl _
    hasEnd := Strict.hasEnd_close tokens }

namespace Sound

variable {reader : Reader} (sound : reader.Sound)

include sound

/-- The position is on a token. -/
theorem getElem?_position :
    reader.tokens[reader.position]? = some (peek reader.rest) := by
  rw [← (sound.hasEnd.behind sound.passes).head?, rest, List.head?_drop]

theorem position_lt : reader.position < reader.tokens.length :=
  (List.getElem?_eq_some_iff.mp sound.getElem?_position).1

theorem position_add_pending :
    reader.position + pending reader.rest = pending reader.tokens := by
  have inside := sound.position_lt
  obtain ⟨passed, split, _, inner⟩ := sound.passes
  have counted := congrArg List.length split
  rw [List.length_append, rest, List.length_drop] at counted
  have whole := congrArg pending split
  rw [pending_append inner] at whole
  omega

theorem moveTo {least : Nat} {rest : List Token}
    (passes : Passes least reader.rest rest) :
    (reader.moveTo rest).rest = rest ∧ (reader.moveTo rest).Sound ∧
      reader.position + least ≤ (reader.moveTo rest).position := by
  have both := sound.passes.trans passes
  obtain ⟨used, split, _, _⟩ := both
  have moved := moveTo_eq split
  have left : (reader.moveTo rest).rest = rest := by
    rw [moved, Reader.rest, split, List.drop_left]
  have soundThere : (reader.moveTo rest).Sound := by
    refine { passes := ?_, hasEnd := sound.hasEnd }
    rw [left]
    exact (sound.passes.trans passes).weaken (Nat.zero_le _)
  -- The sum of the position and of the pending tokens stays, so fewer pending
  -- tokens mean a later position.
  have here := sound.position_add_pending
  have there := soundThere.position_add_pending
  have fewer := passes.pending_le
  rw [left] at there
  have same : (reader.moveTo rest).tokens = reader.tokens := rfl
  rw [same] at there
  exact ⟨left, soundThere, by omega⟩

end Sound

/-- What a request with this answer does to a reader. -/
structure Moves (reader : Reader) (entry : Entry)
    (answer : Except Mismatch Expr) (moved : Reader) : Prop where
  /-- The tokens stay as they are. -/
  tokens : moved.tokens = reader.tokens
  forward : reader.position ≤ moved.position
  /-- The position does not pass the first end. -/
  beforeEnd : moved.position ≤ pending moved.tokens
  further : ∀ tree, answer = .ok tree → reader.position < moved.position
  atEnd : ∀ tree, answer = .ok tree → entry = .whole →
    ∃ token, moved.tokens[moved.position]? = some token ∧
      token.kind = .endOfInput
  refused : ∀ mismatch, answer = .error mismatch →
    ∃ token, moved.tokens[moved.position]? = some token ∧
      mismatch.fault = .grammatical token.line token.place
        mismatch.expected.detail

/-- One request, from any place up to the first end. -/
theorem read_moves {reader : Reader} (sound : reader.Sound) (entry : Entry) :
    reader.Moves entry (reader.read entry).1 (reader.read entry).2 ∧
      (reader.read entry).2.Sound := by
  have proceeds := reply_proceeds reader.rest entry
  rw [read]
  cases result : reply (budgetFor reader.rest) reader.rest entry with
  | read tree rest =>
      rw [result] at proceeds
      obtain ⟨left, soundThere, further⟩ := sound.moveTo proceeds
      have counted := soundThere.position_add_pending
      refine ⟨?_, soundThere⟩
      constructor
      · rfl
      · exact Nat.le_of_lt further
      · exact Nat.le.intro counted
      · intro _ _
        exact further
      · rintro _ _ rfl
        refine ⟨_, soundThere.getElem?_position, ?_⟩
        rw [left]
        exact peek_of_whole result
      · intro mismatch refused
        cases refused
  | refused mismatch rest =>
      rw [result] at proceeds
      obtain ⟨passes, found⟩ := proceeds
      obtain ⟨left, soundThere, forward⟩ := sound.moveTo passes
      have counted := soundThere.position_add_pending
      refine ⟨?_, soundThere⟩
      constructor
      · rfl
      · exact forward
      · exact Nat.le.intro counted
      · intro tree accepted
        cases accepted
      · intro tree accepted
        cases accepted
      · intro _ refused
        cases refused
        refine ⟨_, soundThere.getElem?_position, ?_⟩
        rw [left, ← found]
        rfl
  | exhausted => exact absurd result proceeds.ne_exhausted

section Twins

variable {last : Token} {tail tail' : List Token} {reader reader' : Reader}

/-- Two readers at the same position, whose tokens are the same up to an end
that is still before them. -/
structure Twins (last : Token) (tail tail' : List Token)
    (reader reader' : Reader) : Prop where
  tokens : SameUpTo last tail tail' reader.tokens reader'.tokens
  rest : SameUpTo last tail tail' reader.rest reader'.rest
  position : reader.position = reader'.position

theorem position_moveTo {rest rest' : List Token}
    (tokens : SameUpTo last tail tail' reader.tokens reader'.tokens)
    (same : SameUpTo last tail tail' rest rest') :
    (reader.moveTo rest).position = (reader'.moveTo rest').position := by
  obtain ⟨front, split, split'⟩ := tokens
  obtain ⟨left, rfl, rfl⟩ := same
  simp only [moveTo, split, split', List.length_append, List.length_cons]
  omega

theorem reply_alike (isEnd : last.kind = .endOfInput) (entry : Entry)
    {tokens tokens' : List Token}
    (same : SameUpTo last tail tail' tokens tokens') :
    Alike last tail tail' (reply (budgetFor tokens) tokens entry)
      (reply (budgetFor tokens') tokens' entry) := by
  -- A budget that is enough for both token lists.
  let budget := max (budgetFor tokens) (budgetFor tokens')
  have replied := (reply_settled (Nat.le_refl _)
    (Nat.le_max_left _ _ : _ ≤ budget) entry).1
  have replied' := (reply_settled (Nat.le_refl _)
    (Nat.le_max_right _ _ : _ ≤ budget) entry).1
  rw [replied, replied']
  rcases eq_whole_or_task entry with rfl | ⟨task, _, serves⟩
  · exact whole_alike isEnd budget same
  · rw [serves, serves]
    exact Task.reply_alike isEnd budget task same

theorem Twins.read (isEnd : last.kind = .endOfInput)
    (twins : Twins last tail tail' reader reader')
    (sound : reader.Sound) (sound' : reader'.Sound) (entry : Entry) :
    (reader.read entry).1 = (reader'.read entry).1 ∧
      Twins last tail tail' (reader.read entry).2 (reader'.read entry).2 := by
  have proceeds := reply_proceeds reader.rest entry
  have proceeds' := reply_proceeds reader'.rest entry
  have alike := reply_alike isEnd entry twins.rest
  have moved {rest rest' : List Token}
      (passes : Passes 0 reader.rest rest)
      (passes' : Passes 0 reader'.rest rest')
      (same : SameUpTo last tail tail' rest rest') :
      Twins last tail tail' (reader.moveTo rest) (reader'.moveTo rest') :=
    { tokens := twins.tokens
      rest := by rwa [(sound.moveTo passes).1, (sound'.moveTo passes').1]
      position := position_moveTo twins.tokens same }
  rw [Reader.read, Reader.read]
  generalize reply (budgetFor reader.rest) reader.rest entry = result
    at proceeds alike ⊢
  generalize reply (budgetFor reader'.rest) reader'.rest entry = result'
    at proceeds' alike ⊢
  cases alike with
  | read tree same =>
      exact ⟨rfl, moved (proceeds.weaken (Nat.zero_le 1))
        (proceeds'.weaken (Nat.zero_le 1)) same⟩
  | refused mismatch same =>
      exact ⟨rfl, moved proceeds.1 proceeds'.1 same⟩
  | exhausted => exact proceeds.elim

end Twins

section Strict

/-- The strict reply to a request, which fails if it looks at a place without a
token. -/
def strictReply (budget : Nat) (tokens : List Token) : Entry → Option Reply
  | .whole => Strict.whole budget tokens
  | .expression => Strict.reply budget .expression tokens
  | .operand => Strict.reply budget .operand tokens
  | .group => Strict.reply budget .group tokens
  | .signed => Strict.reply budget .signed tokens
  | .climb least => Strict.reply budget (.climb least) tokens

/-- The strict answer to one request.  It fails also when the budget is used
up. -/
def readStrict (reader : Reader) (entry : Entry) :
    Option (Except Mismatch Expr × Reader) := do
  match ← strictReply (budgetFor reader.rest) reader.rest entry with
  | .read tree rest => return (.ok tree, reader.moveTo rest)
  | .refused mismatch rest => return (.error mismatch, reader.moveTo rest)
  | .exhausted => none

def readEachStrict (reader : Reader) :
    List Entry → Option (List (Except Mismatch Expr) × Reader)
  | [] => return ([], reader)
  | entry :: later => do
      let (answer, moved) ← reader.readStrict entry
      let (answers, last) ← moved.readEachStrict later
      return (answer :: answers, last)

theorem strictReply_eq_some {tokens : List Token} (hasEnd : HasEnd tokens)
    (budget : Nat) (entry : Entry) :
    strictReply budget tokens entry = some (reply budget tokens entry) := by
  cases entry with
  | whole => exact Strict.whole_eq_some budget hasEnd
  | expression => exact (Strict.reply_found budget .expression hasEnd).1
  | operand => exact (Strict.reply_found budget .operand hasEnd).1
  | group => exact (Strict.reply_found budget .group hasEnd).1
  | signed => exact (Strict.reply_found budget .signed hasEnd).1
  | climb least => exact (Strict.reply_found budget (.climb least) hasEnd).1

theorem readStrict_eq_some {reader : Reader} (sound : reader.Sound)
    (entry : Entry) : reader.readStrict entry = some (reader.read entry) := by
  have proceeds := reply_proceeds reader.rest entry
  have hasEnd := sound.hasEnd.behind sound.passes
  rw [readStrict, strictReply_eq_some hasEnd, read]
  generalize reply (budgetFor reader.rest) reader.rest entry = result
    at proceeds ⊢
  cases result with
  | read tree rest => rfl
  | refused mismatch rest => rfl
  | exhausted => exact proceeds.elim

end Strict

section Histories

theorem readEach_append (reader : Reader) (before later : List Entry) :
    reader.readEach (before ++ later) =
      ((reader.readEach before).1 ++
          ((reader.readEach before).2.readEach later).1,
        ((reader.readEach before).2.readEach later).2) := by
  induction before generalizing reader with
  | nil => rfl
  | cons entry before induction =>
      simp only [List.cons_append, readEach, induction]

theorem length_readEach (reader : Reader) (entries : List Entry) :
    (reader.readEach entries).1.length = entries.length := by
  induction entries generalizing reader with
  | nil => rfl
  | cons entry entries induction => simp [readEach, induction]

theorem readEach_sound {reader : Reader} (sound : reader.Sound)
    (entries : List Entry) :
    (reader.readEach entries).2.Sound ∧
      (reader.readEach entries).2.tokens = reader.tokens := by
  induction entries generalizing reader with
  | nil => exact ⟨sound, rfl⟩
  | cons entry entries induction =>
      obtain ⟨moves, moved⟩ := read_moves sound entry
      obtain ⟨soundThere, same⟩ := induction moved
      exact ⟨soundThere, same.trans moves.tokens⟩

theorem readEachStrict_eq_some {reader : Reader} (sound : reader.Sound)
    (entries : List Entry) :
    reader.readEachStrict entries = some (reader.readEach entries) := by
  induction entries generalizing reader with
  | nil => rfl
  | cons entry entries induction =>
      have later := induction (read_moves sound entry).2
      simp [readEachStrict, readEach, readStrict_eq_some sound, later]

theorem Twins.readEach {last : Token} {tail tail' : List Token}
    {reader reader' : Reader} (isEnd : last.kind = .endOfInput)
    (twins : Twins last tail tail' reader reader')
    (sound : reader.Sound) (sound' : reader'.Sound) (entries : List Entry) :
    (reader.readEach entries).1 = (reader'.readEach entries).1 := by
  induction entries generalizing reader reader' with
  | nil => rfl
  | cons entry entries induction =>
      obtain ⟨answer, moved⟩ := twins.read isEnd sound sound' entry
      have later := induction moved (read_moves sound entry).2
        (read_moves sound' entry).2
      simp only [Reader.readEach, answer, later]

/-- Closing a token list adds to it at most behind its last token. -/
theorem close_append_cons (front : List Token) (last : Token)
    (tail : List Token) :
    ∃ behind, close (front ++ last :: tail) = front ++ last :: behind := by
  unfold close
  split
  · next none => simp at none
  · split
    · exact ⟨tail, rfl⟩
    · exact ⟨_, by rw [List.append_assoc, List.cons_append]⟩

/-- In any history of requests to a reader every request moves it as it should
and is answered without looking at a place where no token is.  The answers do
not depend on what stands behind an end. -/
theorem readEach_moves (tokens : List Token) (entries : List Entry) :
    (∃ last, (close tokens)[pending (close tokens)]? = some last ∧
        last.kind = .endOfInput) ∧
      ((ofTokens tokens).readEach entries).2.tokens = close tokens ∧
      (∀ before entry after, entries = before ++ entry :: after →
        ∃ answer,
          ((ofTokens tokens).readEach entries).1[before.length]? =
            some answer ∧
          ((ofTokens tokens).readEach before).2.Moves entry answer
            ((ofTokens tokens).readEach (before ++ [entry])).2) ∧
      (ofTokens tokens).readEachStrict entries =
        some ((ofTokens tokens).readEach entries) ∧
      ∀ front last tail, last.kind = .endOfInput →
        tokens = front ++ last :: tail → ∀ tail',
        ((ofTokens (front ++ last :: tail')).readEach entries).1 =
          ((ofTokens tokens).readEach entries).1 := by
  have sound := sound_ofTokens tokens
  refine ⟨sound.hasEnd.getElem?_pending, (readEach_sound sound entries).2, ?_,
    readEachStrict_eq_some sound entries, ?_⟩
  · rintro before entry after rfl
    have here := (readEach_sound sound before).1
    refine ⟨(((ofTokens tokens).readEach before).2.read entry).1, ?_, ?_⟩
    · have count := length_readEach (ofTokens tokens) before
      rw [readEach_append, List.getElem?_append_right (Nat.le_of_eq count),
        count, Nat.sub_self]
      rfl
    · rw [readEach_append]
      exact (read_moves here entry).1
  · rintro front last tail isEnd rfl tail'
    obtain ⟨behind, closed⟩ := close_append_cons front last tail
    obtain ⟨behind', closed'⟩ := close_append_cons front last tail'
    have same : SameUpTo last behind behind'
        (ofTokens (front ++ last :: tail)).tokens
        (ofTokens (front ++ last :: tail')).tokens :=
      ⟨front, closed, closed'⟩
    have twins : Twins last behind behind' (ofTokens (front ++ last :: tail))
        (ofTokens (front ++ last :: tail')) :=
      { tokens := same, rest := same, position := rfl }
    exact (twins.readEach isEnd sound (sound_ofTokens _) entries).symm

/-- Two operands in front of an end, and a sign behind it. -/
def halvesTokens : List Token :=
  [{ kind := .keyword .nilWord, lexeme := "nil", literal := none, line := 1 },
    { kind := .keyword .nilWord, lexeme := "nil", literal := none, line := 1 },
    Token.endOfInput 1,
    { kind := .operator .minus, lexeme := "-", literal := none, line := 2 }]

/-- After a refusal between the operands, the second one is consumed as a sign,
and the reader stays at the end for good. -/
theorem readEach_moves_halvesTokens :
    let requests : List Entry := [.whole, .signed, .operand]
    let reader := ((ofTokens halvesTokens).readEach [.whole]).2
    (∃ answer,
        ((ofTokens halvesTokens).readEach requests).1[1]? = some answer ∧
        reader.Moves .signed answer
          ((ofTokens halvesTokens).readEach [.whole, .signed]).2) ∧
      reader.position = 1 ∧
      ((ofTokens halvesTokens).readEach requests).2.position = 2 ∧
      ((ofTokens (halvesTokens.take 3)).readEach requests).1 =
        ((ofTokens halvesTokens).readEach requests).1 := by
  have history := readEach_moves halvesTokens [.whole, .signed, .operand]
  obtain ⟨_, _, moves, _, shorter⟩ := history
  refine ⟨moves [.whole] .signed [.operand] rfl, by decide +kernel,
    by decide +kernel, ?_⟩
  exact shorter (halvesTokens.take 2) (Token.endOfInput 1)
    (halvesTokens.drop 3) rfl rfl []

end Histories

end Reader

end LoxExpr
