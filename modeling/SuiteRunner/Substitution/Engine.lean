import SuiteRunner.Substitution.Rule

/-!
# Substitution

A template is read once from left to right. At each position a doubled percent sign is
one percent sign; otherwise the first rule whose pattern stands there is applied, and
reading goes on behind the pattern, so a replacement is never read again; otherwise one
character is copied. An opening brace behind a percent sign that no rule takes must
begin a well-formed placeholder, which is then copied too.
-/

namespace SuiteRunner.Substitution

/-! ### Placeholders that no rule takes -/

inductive Problem where
  | emptyName
  | badName
  | unclosed
  deriving DecidableEq, Repr

def Problem.message : Problem → String
  | emptyName => "empty name"
  | badName => "invalid placeholder name"
  | unclosed => "missing closing `\x7d`"

/-- A malformed placeholder, with the byte offset at which it starts. -/
structure Error where
  token : String
  offset : Nat
  problem : Problem
  deriving DecidableEq, Repr

def Error.message (e : Error) : String :=
  "malformed placeholder `" ++ e.token ++ "` at byte " ++ toString e.offset ++ ": " ++
    e.problem.message

/-- The characters at which a placeholder's name ends, well or badly. -/
def endsName (c : Char) : Bool :=
  c == '\x7d' || c == '\x7b' || c == ' ' || c == '\t' || c == '\n'

/-- Up to and including the first closing brace, if there is one. -/
def throughBrace? : List Char → Option (List Char)
  | [] => none
  | c :: rest => if c = '\x7d' then some [c] else (throughBrace? rest).map (c :: ·)

/-- What is wrong with the placeholder that opens in front of `body`: the malformed part of
the body, and the problem. -/
def bodyProblem? (body : List Char) : Option (List Char × Problem) :=
  let name := body.takeWhile (!endsName ·)
  match body.dropWhile (!endsName ·) with
  | [] => some (body, .unclosed)
  | '\x7d' :: _ => if name.isEmpty then some (['\x7d'], .emptyName) else none
  | behind =>
    match throughBrace? behind with
    | some through => some (name ++ through, .badName)
    | none => some (name, .unclosed)

/-! ### Reading a template -/

/-- The first rule that applies at the beginning of the text, with what follows its pattern. -/
def Rule.first? (rules : List Rule) (text : List Char) : Option (Rule × List Char) :=
  match rules with
  | [] => none
  | rule :: rules =>
    match rule.pattern.toList with
    | [] => first? rules text
    | pattern =>
      match Text.after? pattern text with
      | some rest => some (rule, rest)
      | none => first? rules text

theorem Rule.first?_shorter {rules : List Rule} {text rest : List Char} {rule : Rule}
    (h : Rule.first? rules text = some (rule, rest)) : rest.length < text.length := by
  induction rules with
  | nil => simp [first?] at h
  | cons head rules ih =>
    unfold first? at h
    cases shape : head.pattern.toList with
    | nil =>
      rw [shape] at h
      exact ih h
    | cons p pattern =>
      rw [shape] at h
      dsimp only at h
      split at h
      next after found =>
        simp only [Option.some.injEq, Prod.mk.injEq] at h
        obtain ⟨-, rfl⟩ := h
        rw [Text.eq_append_of_after? found]
        simp only [List.length_append, List.length_cons]
        omega
      · exact ih h

/-- What is wrong with a placeholder that begins with these characters and that no rule takes. -/
def placeholderProblem? : Char → List Char → Option (List Char × Problem)
  | '%', '\x7b' :: body => bodyProblem? body
  | _, _ => none

/-- Substitute in the text that begins at byte `offset` of the template. -/
def substituteFrom (rules : List Rule) (offset : Nat) (text : List Char) :
    Except Error (List Char) :=
  match text with
  | [] => .ok []
  | '%' :: '%' :: rest => ('%' :: ·) <$> substituteFrom rules (offset + 2) rest
  | c :: rest =>
    match found : Rule.first? rules (c :: rest) with
    | some (rule, after) =>
      have : after.length ≤ rest.length := Nat.le_of_lt_succ (Rule.first?_shorter found)
      (rule.replacement.toList ++ ·) <$>
        substituteFrom rules (offset + rule.pattern.utf8ByteSize) after
    | none =>
      match placeholderProblem? c rest with
      | some (part, problem) => .error ⟨String.ofList ('%' :: '\x7b' :: part), offset, problem⟩
      | none => (c :: ·) <$> substituteFrom rules (offset + c.utf8Size) rest
termination_by text.length

/-- Substitute in a template with an ordered list of rules. -/
def substitute (rules : List Rule) (template : String) : Except Error String :=
  String.ofList <$> substituteFrom rules 0 template.toList

end SuiteRunner.Substitution
