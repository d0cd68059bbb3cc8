import Workflow.Template.Expr

/-!
# Statement tags

What the text of a statement tag says: whether it prints, stands alone or opens a section, and which
tags continue and close a section. Statements are parsed to tell a well-formed one, which a template
may not use, from one that is malformed.
-/

namespace Workflow.Template

inductive Section where
  /-- After `if` or `elif`. -/
  | branch
  /-- After `for`. -/
  | loop
  /-- Closed by one word and nothing else. -/
  | body (ender : String)
  /-- After `block`; `blankOnly` says whether its content has to be blank, and `blank` whether it is. -/
  | block (name : String) (blankOnly blank : Bool)

inductive Statement where
  | print (es : List Expr)
  | single
  | opens (s : Section)

/-- The words that continue or close a section. -/
def Section.words : Section → List String
  | branch => ["elif", "else", "endif"]
  | loop => ["else", "endfor"]
  | body ender => [ender]
  | block .. => ["endblock"]

mutual

def Expr.assignable : Expr → Bool
  | .name _ => true
  | .tuple es => allAssignable es
  | _ => false

def allAssignable : List Expr → Bool
  | [] => true
  | e :: es => e.assignable && allAssignable es

end

/-- An operand that is assigned to; `members` allows a member of a namespace, which is as good as a name. -/
def target (fuel : Nat) (members : Bool) : Reader Expr
  | .name s :: .symbol "." :: ts =>
    if members ∧ constant? s = none then
      match ts with
      | .name t :: ts => .ok (.name t, ts)
      | ts => failAt ts
    else primary fuel (.name s :: .symbol "." :: ts)
  | ts => primary fuel ts

def targets : (fuel : Nat) → (members : Bool) → (enders : List String) → Reader (List Expr)
  | 0, _, _, ts => failAt ts
  | fuel + 1, members, enders, ts =>
    if tupleEnds enders ts then failAt ts
    else do
      let (e, ts) ← target (fuelFor ts) members ts
      match ts with
      | .symbol "," :: ts =>
        if tupleEnds enders ts then return ([e], ts)
        else do
          let (es, ts) ← targets fuel members enders ts
          return (e :: es, ts)
      | ts => return ([e], ts)

/-- The lexemes after what is assigned to. That it can be assigned to is looked at when all of it is read. -/
def assigned (members : Bool) (enders : List String) (ts : List Lexeme) : Except TemplateFault (List Lexeme) := do
  let (es, ts) ← targets (fuelFor ts) members enders ts
  if allAssignable es then return ts else failAt ts

def newName : List Lexeme → Except TemplateFault (List Lexeme)
  | .name s :: ts => if constant? s = none then .ok ts else failAt ts
  | ts => failAt ts

def wholeExpression (ts : List Lexeme) : Except TemplateFault (Expr × List Lexeme) := expression (fuelFor ts) true ts

/-- The end of a tag that opens a section; a colon may stand before it. -/
def sectionEnd : List Lexeme → Except TemplateFault Unit
  | .symbol ":" :: ts => close ts
  | ts => close ts

def opening (s : Section) (ts : List Lexeme) : Except TemplateFault Statement := do
  sectionEnd ts
  return .opens s

def alone (ts : List Lexeme) : Except TemplateFault Statement := do
  close ts
  return .single

/-- The lexemes after a word, if it stands here. -/
def skipWord (word : String) : List Lexeme → List Lexeme
  | .name s :: ts => if s = word then ts else .name s :: ts
  | ts => ts

def forTag (ts : List Lexeme) : Except TemplateFault Statement := do
  match ← assigned false ["in"] ts with
  | .name "in" :: ts =>
    let (_, ts) ← tuple (fuelFor ts) false ["recursive"] false ts
    let ts ← match ts with
      | .name "if" :: ts => (wholeExpression ts).map Prod.snd
      | ts => .ok ts
    opening .loop (skipWord "recursive" ts)
  | ts => failAt ts

def ifTag (s : Section) (ts : List Lexeme) : Except TemplateFault Statement := do
  let (_, ts) ← tuple (fuelFor ts) false [] false ts
  opening s ts

def filters : (fuel : Nat) → List Lexeme → Except TemplateFault (List Lexeme)
  | fuel + 1, .symbol "|" :: ts => do
    let (_, ts) ← filterName (fuelFor ts) ts
    filters fuel ts
  | _, ts => .ok ts

def setTag (ts : List Lexeme) : Except TemplateFault Statement := do
  match ← assigned true [] ts with
  | .symbol "=" :: ts =>
    let (_, ts) ← tuple (fuelFor ts) true [] false ts
    alone ts
  | ts => opening (.body "endset") (← filters ts.length ts)

def withTag : (fuel : Nat) → List Lexeme → Except TemplateFault Statement
  | _, .close :: _ => .ok (.opens (.body "endwith"))
  | 0, ts => failAt ts
  | fuel + 1, ts => do
    let ts ← symbol "=" (← assigned false [] ts)
    let (_, ts) ← wholeExpression ts
    match ts with
    | .symbol "," :: .close :: _ => .error .malformed
    | .symbol "," :: ts => withTag fuel ts
    | ts =>
      close ts
      return .opens (.body "endwith")

def blockTag : List Lexeme → Except TemplateFault Statement
  | .name s :: ts =>
    match skipWord "scoped" ts with
    | .name "required" :: ts => opening (.block s true true) ts
    | ts => opening (.block s false true) ts
  | ts => failAt ts

/-- The lexemes after a note about the context, if there is one; telling that takes a look behind its first word. -/
def contextNote : List Lexeme → Except TemplateFault (Option (List Lexeme))
  | .name s :: .name "context" :: ts => .ok (if s = "with" ∨ s = "without" then some ts else none)
  | .name s :: .stop f :: _ => if s = "with" ∨ s = "without" then .error f else .ok none
  | _ => .ok none

def aloneWithNote (ts : List Lexeme) : Except TemplateFault Statement := do alone ((← contextNote ts).getD ts)

def includeTag (ts : List Lexeme) : Except TemplateFault Statement := do
  let (_, ts) ← wholeExpression ts
  match ts with
  | .name "ignore" :: .name "missing" :: ts => aloneWithNote ts
  | .name "ignore" :: ts => failAt ts
  | ts => aloneWithNote ts

def importTag (ts : List Lexeme) : Except TemplateFault Statement := do
  let (_, ts) ← wholeExpression ts
  match ts with
  | .name "as" :: ts => aloneWithNote (← newName ts)
  | ts => failAt ts

/-- The lexemes after the names of an import. A note about the context may stand behind them or in the place of one. -/
def importedNames : (fuel : Nat) → List Lexeme → Except TemplateFault (List Lexeme)
  | 0, ts => failAt ts
  | fuel + 1, .name s :: ts => do
    match ← contextNote (.name s :: ts) with
    | some ts => return ts
    | none =>
      if constant? s ≠ none ∨ s.startsWith "_" then failAt ts
      else
        let ts ← match ts with
          | .name "as" :: ts => newName ts
          | ts => .ok ts
        match ← contextNote ts with
        | some ts => return ts
        | none =>
          match ts with
          | .symbol "," :: ts => importedNames fuel ts
          | ts => return ts
  | _, ts => failAt ts

def fromTag (ts : List Lexeme) : Except TemplateFault Statement := do
  let (_, ts) ← wholeExpression ts
  match ts with
  | .name "import" :: ts => alone (← importedNames (ts.length + 1) ts)
  | ts => failAt ts

/-- The lexemes after the parameters of a macro; `defaults` says whether one had a default. -/
def parameters : (fuel : Nat) → (defaults : Bool) → List Lexeme → Except TemplateFault (List Lexeme)
  | 0, _, ts => failAt ts
  | fuel + 1, defaults, ts => do
    let ts ← newName ts
    let (defaults, ts) ← match ts with
      | .symbol "=" :: ts => (wholeExpression ts).map fun (_, ts) => (true, ts)
      | ts => if defaults then failAt ts else .ok (false, ts)
    match ts with
    | .symbol ")" :: ts => return ts
    | ts => parameters fuel defaults (← symbol "," ts)

/-- The lexemes after the signature of a macro, behind its opening parenthesis. -/
def signature : List Lexeme → Except TemplateFault (List Lexeme)
  | .symbol ")" :: ts => .ok ts
  | ts => parameters (ts.length + 1) false ts

def macroTag (ts : List Lexeme) : Except TemplateFault Statement := do
  let ts ← symbol "(" (← newName ts)
  opening (.body "endmacro") (← signature ts)

def callTag (ts : List Lexeme) : Except TemplateFault Statement := do
  let ts ← match ts with
    | .symbol "(" :: ts => signature ts
    | ts => .ok ts
  let (e, ts) ← wholeExpression ts
  match e with
  | .call .. => opening (.body "endcall") ts
  | _ => failAt ts

def filterTag (ts : List Lexeme) : Except TemplateFault Statement := do
  let (_, ts) ← filterName (fuelFor ts) ts
  opening (.body "endfilter") (← filters ts.length ts)

def printed : (fuel : Nat) → List Lexeme → Except TemplateFault (List Expr)
  | _, .close :: _ => .ok []
  | 0, ts => failAt ts
  | fuel + 1, ts => do
    let (e, ts) ← wholeExpression ts
    match ts with
    | .symbol "," :: .close :: _ => .error .malformed
    | .symbol "," :: ts => return e :: (← printed fuel ts)
    | ts =>
      close ts
      return [e]

def statement : List Lexeme → Except TemplateFault Statement
  | .name word :: ts =>
    match word with
    | "for" => forTag ts
    | "if" => ifTag .branch ts
    | "set" => setTag ts
    | "with" => withTag (ts.length + 1) ts
    | "autoescape" => (wholeExpression ts).bind fun (_, ts) => opening (.body "endautoescape") ts
    | "block" => blockTag ts
    | "extends" => (wholeExpression ts).bind fun (_, ts) => alone ts
    | "include" => includeTag ts
    | "import" => importTag ts
    | "from" => fromTag ts
    | "print" => (printed (ts.length + 1) ts).map .print
    | "macro" => macroTag ts
    | "call" => callTag ts
    | "filter" => filterTag ts
    | _ => .error .malformed
  | ts => failAt ts

/-- The section after one of its words: another one, or none when the word closes it. -/
def Section.follow (s : Section) (word : String) (ts : List Lexeme) : Except TemplateFault (Option Section) :=
  match s, word with
  | .branch, "elif" => (ifTag .branch ts).map fun _ => some .branch
  | .branch, "else" => (sectionEnd ts).map fun _ => some (.body "endif")
  | .loop, "else" => (sectionEnd ts).map fun _ => some (.body "endfor")
  | .block name blankOnly blank, _ =>
    if blankOnly && !blank then failAt ts else (close (skipWord name ts)).map fun _ => none
  | _, _ => (close ts).map fun _ => none

end Workflow.Template
