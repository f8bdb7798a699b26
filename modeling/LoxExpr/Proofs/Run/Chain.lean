import LoxExpr.Proofs.Grammar.Rendering
import LoxExpr.Proofs.Run.Composition

/-!
# Chains of operators

Literals that are joined by operators of one level of binding strength have
the value that is folded from the left.  The text is scanned to a literal and,
for each link, an operator and a literal; the grammar nests these links to the
left; and an evaluation of the nested tree makes the steps of the fold.  So the
first step without a value is the one that is reported.
-/

namespace LoxExpr

open Lexis Piece

/-- The text of a string with this content. -/
def quotation (content : String) : String :=
  String.ofList ('"' :: (content.toList ++ ['"']))

/-- A text that is a literal with this value. -/
inductive IsLiteral : String → Value → Prop where
  | number {text : String} {value : Value} :
      Rule text.toList (.token .number (some value)) →
      IsLiteral text value
  | string {content : String} :
      '"' ∉ content.toList → IsLiteral (quotation content) (.string content)
  | trueWord : IsLiteral "true" (.boolean true)
  | falseWord : IsLiteral "false" (.boolean false)
  | nilWord : IsLiteral "nil" .nil

/-- A literal in a text. -/
structure Operand where
  text : String
  value : Value
  isLiteral : IsLiteral text value

/-- An operator of a level, as it is spelled, and the literal behind it. -/
structure Link (level : Grammar.Level) where
  symbol : Operator
  onLevel : symbol ∈ level.symbols
  word : String
  isWord : (word.toList, Token.Kind.operator symbol) ∈ symbols
  operand : Operand

namespace Link

variable {level : Grammar.Level}

theorem isSome_operation? (link : Link level) :
    link.symbol.operation?.isSome = true := by
  rw [Operator.operation?_isSome, Grammar.Level.mem_symbols_iff.mp link.onLevel]
  rfl

/-- The operation of the link, applied to a value and to its literal. -/
def apply (value : Value) (link : Link level) : Except Objection Value :=
  link.symbol.operation?.get link.isSome_operation? value link.operand.value

def text (link : Link level) : String :=
  " " ++ link.word ++ " " ++ link.operand.text

def sign (link : Link level) (before : List Char) : Token :=
  Token.sign link.symbol link.word (1 + lineBreaks before)

/-- The value of the links behind a value, folded from the left. -/
def fold (value : Value) (links : List (Link level)) :
    Except Objection Value :=
  links.foldlM apply value

end Link

/-- A literal with links behind it. -/
def chainText {level : Grammar.Level} (first : Operand)
    (links : List (Link level)) : String :=
  first.text ++ String.join (links.map Link.text)

section Literals

variable {text : String} {value : Value}

/-- A literal is a word of a lexical rule, and the grammar takes its token for
its value. -/
theorem IsLiteral.rule (isLiteral : IsLiteral text value) :
    ∃ kind literal, Rule text.toList (.token kind literal) ∧
      ∀ line, Reading.constant? ⟨kind, text, literal, line⟩ =
        some value := by
  cases isLiteral with
  | number rule => exact ⟨_, _, rule, fun _ => rfl⟩
  | @string content noQuote =>
      have inside : ∀ c ∈ content.toList, c ≠ '"' := by
        intro c member isQuote
        exact noQuote (isQuote ▸ member)
      have rule := Rule.string inside
      rw [String.ofList_toList] at rule
      refine ⟨.string, some (.string content), ?_, fun _ => rfl⟩
      rwa [quotation, String.toList_ofList]
  | trueWord => exact ⟨_, _, rule_keyword .trueWord, fun _ => rfl⟩
  | falseWord => exact ⟨_, _, rule_keyword .falseWord, fun _ => rfl⟩
  | nilWord => exact ⟨_, _, rule_keyword .nilWord, fun _ => rfl⟩

theorem IsLiteral.contents (isLiteral : IsLiteral text value)
    (before : List Char) {rest : List Char} (stops : Stops rest) :
    ∃ token, Reading.constant? token = some value ∧
      contents tokenOf? before (text.toList ++ rest) =
        token :: contents tokenOf? (before ++ text.toList) rest ∧
      contents faultOf? before (text.toList ++ rest) =
        contents faultOf? (before ++ text.toList) rest := by
  obtain ⟨kind, literal, rule, constant⟩ := isLiteral.rule
  have cuts := rule.split_append stops
  have pieces : split (text.toList ++ rest) =
      [⟨text.toList, .token kind literal⟩] ++ split rest := cuts
  refine ⟨_, constant (1 + lineBreaks (before ++ text.toList)), ?_, ?_⟩
  · rw [contents_of_split _ _ pieces]
    simp [placed, tokenOf?]
  · rw [contents_of_split _ _ pieces]
    simp [placed, faultOf?]

end Literals

section Links

variable {level : Grammar.Level}

def linksText (links : List (Link level)) : List Char :=
  links.flatMap fun link => link.text.toList

/-- The tree of the links behind a text and its tree. -/
def linksTree (left : Expr) (before : List Char) :
    List (Link level) → Expr
  | [] => left
  | link :: others =>
      linksTree
        (.binary left (link.sign before) (.literal link.operand.value))
        (before ++ link.text.toList) others

theorem toList_text (link : Link level) :
    link.text.toList =
      ' ' :: (link.word.toList ++ ' ' :: link.operand.text.toList) := by
  simp [Link.text]

theorem stops_linksText (links : List (Link level)) :
    Stops (linksText links) := by
  cases links with
  | nil => exact stops_nil
  | cons link others =>
      have isBlank : Blank ' ' := .inl rfl
      rw [linksText, List.flatMap_cons, toList_text]
      exact (Stop.of_blank isBlank).stops _

theorem toList_chainText (first : Operand) (links : List (Link level)) :
    (chainText first links).toList =
      first.text.toList ++ linksText links := by
  simp [chainText, linksText, String.toList_join, List.flatMap_map]

/-- The operator of the first link is scanned to its sign, and the literal
behind it to a token for its value. -/
theorem contents_link (link : Link level) (before : List Char)
    (others : List (Link level)) :
    ∃ token, Reading.constant? token = some link.operand.value ∧
      contents tokenOf? before (linksText (link :: others)) =
        link.sign before :: token ::
          contents tokenOf? (before ++ link.text.toList)
            (linksText others) ∧
      contents faultOf? before (linksText (link :: others)) =
        contents faultOf? (before ++ link.text.toList)
          (linksText others) := by
  have spaced : linksText (link :: others) =
      ' ' :: (link.word.toList ++
        ' ' :: (link.operand.text.toList ++ linksText others)) := by
    simp [linksText, toList_text]
  have behind : before ++ ' ' :: (link.word.toList ++ [' ']) ++
      link.operand.text.toList = before ++ link.text.toList := by
    simp [toList_text]
  obtain ⟨token, constant, tokens, faults⟩ :=
    link.operand.isLiteral.contents
      (before ++ ' ' :: (link.word.toList ++ [' '])) (stops_linksText others)
  refine ⟨token, constant, ?_, ?_⟩
  · rw [spaced, tokens_spaced link.isWord, tokens, behind]
    rfl
  · rw [spaced, faults_spaced link.isWord, faults, behind]

theorem derives_literal {token : Token} {value : Value}
    (constant : Reading.constant? token = some value) :
    Grammar.Derives level.operand [token] (.literal value) :=
  (Grammar.Derives.primary (.constant constant)).operand level

/-- Links are scanned without a fault, and the grammar derives their tokens
with the tree that is nested to the left. -/
theorem linksText_reads (left : Expr) (before : List Char)
    (links : List (Link level)) :
    contents faultOf? before (linksText links) = [] ∧
      Grammar.Derives (.links level left)
        (contents tokenOf? before (linksText links))
        (linksTree left before links) := by
  -- Each link moves into the tree and the text in front of the others.
  induction links generalizing left before with
  | nil =>
      have nothing : linksText ([] : List (Link level)) = [] := rfl
      rw [nothing, contents_nil, contents_nil]
      exact ⟨rfl, .noLink⟩
  | cons link others induction =>
      obtain ⟨token, constant, tokens, faults⟩ :=
        contents_link link before others
      obtain ⟨noFaults, derives⟩ := induction
        (.binary left (link.sign before) (.literal link.operand.value))
        (before ++ link.text.toList)
      constructor
      · rw [faults, noFaults]
      · rw [tokens]
        exact .link rfl link.onLevel (derives_literal constant) derives

/-- The tree of a chain. -/
def chainTree (first : Operand) (links : List (Link level)) : Expr :=
  linksTree (.literal first.value) first.text.toList links

theorem chainText_reads (first : Operand) (links : List (Link level)) :
    (scan (chainText first links)).faults = [] ∧
      Expr.ofTokens (scan (chainText first links)).tokens =
        .ok (chainTree first links) := by
  obtain ⟨token, constant, tokens, faults⟩ :=
    first.isLiteral.contents [] (stops_linksText links)
  obtain ⟨noFaults, derives⟩ :=
    linksText_reads (.literal first.value) first.text.toList links
  rw [faults_scan, tokens_scan, toList_chainText, tokens, faults]
  constructor
  · exact noFaults
  · have chain : Grammar.Derives (.chain level)
        ([token] ++ contents tokenOf? first.text.toList (linksText links))
        (chainTree first links) :=
      .chain (derives_literal constant) derives
    exact Expr.ofTokens_of_derives rfl chain.expression

end Links

section Evaluation

variable {level : Grammar.Level} {left : Expr} {value : Value}

theorem applyBinary_sign {symbol : Operator}
    {operation : Value → Value → Except Objection Value}
    (found : symbol.operation? = some operation) (word : String) (line : Nat)
    (x y : Value) :
    (Token.sign symbol word line).applyBinary x y =
      (Token.sign symbol word line).settle (operation x y) := by
  simp [Token.applyBinary, Token.sign, found]

theorem evaluate_link (result : left.evaluate = .ok value)
    (link : Link level) (before : List Char) :
    (Expr.binary left (link.sign before)
        (.literal link.operand.value)).evaluate =
      (link.sign before).settle (link.apply value) := by
  have found := Option.some_get link.isSome_operation?
  rw [Expr.evaluate, result]
  exact applyBinary_sign found.symm _ _ _ _

theorem Link.fold_cons (value : Value) (link : Link level)
    (others : List (Link level)) :
    fold value (link :: others) =
      (link.apply value).bind fun reached => fold reached others :=
  rfl

/-- If the fold has a value, the nested tree has the same one. -/
theorem evaluate_linksTree (result : left.evaluate = .ok value)
    (before : List Char) {links : List (Link level)} {last : Value}
    (folds : Link.fold value links = .ok last) :
    (linksTree left before links).evaluate = .ok last := by
  induction links generalizing left value before with
  | nil =>
      cases folds
      exact result
  | cons link others induction =>
      rw [Link.fold_cons] at folds
      have node := evaluate_link result link before
      cases step : link.apply value with
      | ok reached =>
          rw [step] at folds node
          exact induction node _ folds
      | error objection =>
          rw [step] at folds
          cases folds

theorem linksTree_append (before : List Char)
    (links others : List (Link level)) :
    linksTree left before (links ++ others) =
      linksTree (linksTree left before links)
        (before ++ linksText links) others := by
  induction links generalizing left before with
  | nil => simp [linksTree, linksText]
  | cons link links induction =>
      rw [List.cons_append, linksTree, induction, linksTree]
      simp [linksText]

theorem evaluate_linksTree_of_stuck {stuck : Stuck}
    (result : left.evaluate = .error stuck) (before : List Char)
    (links : List (Link level)) :
    (linksTree left before links).evaluate = .error stuck := by
  induction links generalizing left before with
  | nil => exact result
  | cons link others induction =>
      apply induction
      rw [Expr.evaluate, result]

/-- A fold without a value has a first step that fails. -/
theorem Link.exists_first_failure {links : List (Link level)}
    {objection : Objection} (fails : fold value links = .error objection) :
    ∃ front link back reached, links = front ++ link :: back ∧
      fold value front = .ok reached ∧
      link.apply reached = .error objection := by
  induction links generalizing value with
  | nil => cases fails
  | cons link others induction =>
      rw [fold_cons] at fails
      cases step : link.apply value with
      | ok reached =>
          rw [step] at fails
          obtain ⟨front, failing, back, last, rfl, folds, applied⟩ :=
            induction fails
          refine ⟨link :: front, failing, back, last, rfl, ?_, applied⟩
          rw [fold_cons, step]
          exact folds
      | error found =>
          rw [step] at fails
          cases fails
          exact ⟨[], link, others, value, rfl, rfl, step⟩

/-- The nested tree gets stuck at the operator of the first failing step. -/
theorem evaluate_linksTree_of_failure (result : left.evaluate = .ok value)
    (before : List Char) {front back : List (Link level)} {link : Link level}
    {reached : Value} {objection : Objection}
    (folds : Link.fold value front = .ok reached)
    (fails : link.apply reached = .error objection) :
    (linksTree left before (front ++ link :: back)).evaluate =
      .error
        { token := link.sign (before ++ linksText front)
          obstacle := .objection objection } := by
  have node := evaluate_link (evaluate_linksTree result before folds) link
    (before ++ linksText front)
  rw [fails] at node
  rw [linksTree_append, linksTree]
  exact evaluate_linksTree_of_stuck node _ back

end Evaluation

/-- What can stand between the quotes of a string. -/
structure QuoteFree where
  content : String
  noQuote : '"' ∉ content.toList

def Operand.ofString (string : QuoteFree) : Operand where
  text := quotation string.content
  value := .string string.content
  isLiteral := .string string.noQuote

/-- The link that adds a string. -/
def Link.plus (string : QuoteFree) : Link .term where
  symbol := .plus
  onLevel := by decide
  word := "+"
  isWord := by decide
  operand := .ofString string

theorem fold_strings (start : String) (strings : List QuoteFree) :
    Link.fold (.string start) (strings.map Link.plus) =
      .ok (.string
        (start ++ String.join (strings.map QuoteFree.content))) := by
  induction strings generalizing start with
  | nil =>
      rw [List.map_nil, List.map_nil, String.join_nil, String.append_empty]
      rfl
  | cons string others induction =>
      have step : (Link.plus string).apply (.string start) =
          .ok (.string (start ++ string.content)) := rfl
      rw [List.map_cons, Link.fold_cons, step, List.map_cons,
        String.join_cons, ← String.append_assoc]
      exact induction (start ++ string.content)

section Runs

variable {level : Grammar.Level} (first : Operand)
  (links : List (Link level))

theorem result_chain (value : Value) :
    (run (chainText first links)).result = some value ↔
      Link.fold first.value links = .ok value := by
  have start : (Expr.literal first.value).evaluate = .ok first.value := rfl
  rw [result_of_reading (chainText_reads first links).2, chainTree]
  cases folds : Link.fold first.value links with
  | ok last => simp [evaluate_linksTree start _ folds]
  | error objection =>
      obtain ⟨front, link, back, reached, rfl, folds, fails⟩ :=
        Link.exists_first_failure folds
      rw [evaluate_linksTree_of_failure start _ folds fails]
      simp

theorem errors_chain_of_value {value : Value}
    (folds : Link.fold first.value links = .ok value) :
    (run (chainText first links)).errors = [] := by
  obtain ⟨faults, reading⟩ := chainText_reads first links
  have evaluated : (chainTree first links).evaluate = .ok value :=
    evaluate_linksTree rfl _ folds
  rw [errors_of_reading reading, faults, Expr.failure?_of_value evaluated]
  rfl

/-- The error of a chain without a value names the operator of the first step
that fails, on the line of the operator. -/
theorem errors_chain_of_failure {objection : Objection}
    (failed : Link.fold first.value links = .error objection) :
    ∃ front link back reached, links = front ++ link :: back ∧
      Link.fold first.value front = .ok reached ∧
      link.apply reached = .error objection ∧
      (run (chainText first links)).errors =
        [(Fault.runtime (1 + lineBreaks (chainText first front).toList)
          ("'" ++ link.word ++ "'") objection.detail).message] := by
  obtain ⟨faults, reading⟩ := chainText_reads first links
  obtain ⟨front, link, back, reached, rfl, folds, fails⟩ :=
    Link.exists_first_failure failed
  refine ⟨front, link, back, reached, rfl, folds, fails, ?_⟩
  have stuck : (chainTree first (front ++ link :: back)).evaluate = _ :=
    evaluate_linksTree_of_failure rfl _ folds fails
  rw [← toList_chainText] at stuck
  have reported := Expr.failure?_eq_some_iff.mpr ⟨_, stuck, rfl⟩
  rw [errors_of_reading reading, faults, reported]
  rfl

end Runs

/-- A chain of literals of any number, joined by operators of one level, is
scanned and read without a fault.  The result of its run is the value that is
folded from the left.  If a step of the fold fails there is no result, and the
only error is about the operator of the first such step.  In particular strings
that are added have all their contents as their value. -/
theorem run_chain :
    (∀ (level : Grammar.Level) (first : Operand) (links : List (Link level)),
      let text := chainText first links
      let folded := Link.fold first.value links
      (scan text).faults = [] ∧
        Expr.ofTokens (scan text).tokens = .ok (chainTree first links) ∧
        (∀ value, (run text).result = some value ↔ folded = .ok value) ∧
        (∀ value, folded = .ok value → (run text).errors = []) ∧
        ∀ objection, folded = .error objection →
          (run text).result = none ∧
            ∃ front link back reached, links = front ++ link :: back ∧
              Link.fold first.value front = .ok reached ∧
              link.apply reached = .error objection ∧
              (run text).errors =
                [(Fault.runtime
                  (1 + lineBreaks (chainText first front).toList)
                  ("'" ++ link.word ++ "'") objection.detail).message]) ∧
      ∀ (first : QuoteFree) (others : List QuoteFree),
        let text := chainText (.ofString first) (others.map Link.plus)
        (run text).result =
            some (.string (String.join
              ((first :: others).map QuoteFree.content))) ∧
          (run text).errors = [] := by
  constructor
  · intro level first links text folded
    obtain ⟨faults, reading⟩ := chainText_reads first links
    refine ⟨faults, reading, result_chain first links, ?_, ?_⟩
    · intro value folds
      exact errors_chain_of_value first links folds
    · intro objection fails
      constructor
      · rw [Option.eq_none_iff_forall_ne_some]
        intro value result
        have folds := (result_chain first links value).mp result
        cases fails.symm.trans folds
      · exact errors_chain_of_failure first links fails
  · intro first others text
    have folds := fold_strings first.content others
    constructor
    · apply (result_chain _ _ _).mpr
      rw [List.map_cons, String.join_cons]
      exact folds
    · exact errors_chain_of_value _ _ folds

/-- The link that takes nil away, which no value allows. -/
def Link.minusNil : Link .term where
  symbol := .minus
  onLevel := by decide
  word := "-"
  isWord := by decide
  operand := { text := "nil", value := .nil, isLiteral := .nilWord }

/-- Two strings are added before a step fails, and the second one moves the
operator of this step to the next line. -/
theorem run_chain_minusNil :
    let first : QuoteFree := ⟨"a", by decide⟩
    let second : QuoteFree := ⟨"b\n", by decide⟩
    let sum := chainText (.ofString first) [.plus second]
    let text := chainText (.ofString first) [.plus second, .minusNil]
    (run sum).result = some (.string "ab\n") ∧
      (run sum).errors = [] ∧
      Link.fold (.string "a") [.plus second, .minusNil] =
        .error .twoNumbers ∧
      (run text).result = none ∧
      (run text).errors =
        ["Line 2: Operands must be numbers. at '-'"] := by
  intro first second sum text
  obtain ⟨chains, strings⟩ := run_chain
  obtain ⟨added, noError⟩ := strings first [second]
  obtain ⟨_, _, _, _, fails⟩ :=
    chains .term (.ofString first) [.plus second, .minusNil]
  have failed : Link.fold (.string "a") [.plus second, .minusNil] =
      .error .twoNumbers := rfl
  obtain ⟨noResult, _⟩ := fails .twoNumbers failed
  exact ⟨added, noError, failed, noResult, by decide +kernel⟩

end LoxExpr
