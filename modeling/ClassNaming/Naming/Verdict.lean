/-
Verdicts on tokens, and on every token of a class string, a selector or nested style rules, in the order of the text.
-/
import ClassNaming.Extract.Nesting
import ClassNaming.Naming.Diagnosis

namespace ClassNaming

/-- the outcome for one token; a valid token without a kind is an unknown one that the rules let pass -/
structure Verdict where
  valid : Bool
  kind : Option Kind
  message : Option String
deriving DecidableEq, Repr

/-- the verdict on a token -/
def judge (rules : Rules) (token : String) : Verdict :=
  match classify rules token with
  | some kind => ⟨true, some kind, none⟩
  | none =>
    if rules.allowUnknown then ⟨true, none, some (unknownMessage token)⟩
    else ⟨false, none, some (explain token)⟩

/-- the verdict as a mapping, the message only if there is one -/
def Verdict.fields (v : Verdict) : Entries :=
  [(.text "valid", .bool v.valid), (.text "kind", .textOrNull (v.kind.map Kind.word))]
    ++ (v.message.map fun m => (.text "message", .text m)).toList

/-- a token with its verdict -/
structure Judged where
  token : String
  verdict : Verdict
deriving DecidableEq, Repr

namespace Judged

/-- the token and its verdict as a mapping -/
def fields (j : Judged) : Entries :=
  (.text "token", .text j.token) :: j.verdict.fields

/-- the text a judged token is shown as -/
def shown (j : Judged) : String :=
  let kind := match j.verdict.kind with
    | some k => k.quoted
    | none => "None"
  let verdict := "ValidationResult(valid=" ++ (Value.bool j.verdict.valid).quoted ++ ", kind=" ++ kind ++ ", message="
    ++ (Value.textOrNull j.verdict.message).quoted ++ ")"
  "TokenResult(token=" ++ Text.quoted j.token ++ ", result=" ++ verdict ++ ")"

/-- the judged token as a value of a report -/
def value (j : Judged) : Value :=
  .record "TokenResult" j.shown j.fields

end Judged

/-- every token with its verdict -/
def judgeAll (rules : Rules) (tokens : List String) : List Judged :=
  tokens.map fun t => ⟨t, judge rules t⟩

/-- the verdicts on a class string -/
def judgeClassString (rules : Rules) (s : String) : List Verdict :=
  (Extract.classString s).map (judge rules)

/-- the failing tokens of a class string -/
def invalidClasses (rules : Rules) (s : String) : List Judged :=
  (judgeAll rules (Extract.classString s)).filter (!·.verdict.valid)

/-- the verdicts on the classes of a selector -/
def judgeSelector (rules : Rules) (s : String) : List Verdict :=
  (Extract.selector s).map (judge rules)

/-- the verdicts on the classes of nested style rules -/
def judgeNested (rules : Rules) (s : String) : List Judged :=
  judgeAll rules (Extract.nested s)

end ClassNaming
