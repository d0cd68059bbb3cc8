import Workflow.Template.Lexeme

/-!
# Expressions

The expressions that may stand in a tag, and their parser. Most of them are parsed only to be refused:
a template is well formed as a tag language even where it asks for more than substitution.
-/

namespace Workflow.Template

inductive Literal where
  | null
  | bool (b : Bool)
  | int (n : Nat)
  | float (x : Binary64)
  | text (s : String)
  deriving DecidableEq

inductive Expr where
  | name (s : String)
  | literal (l : Literal)
  /-- `e.name` -/
  | attribute (e : Expr) (name : String)
  /-- `e[index]`, and `e.0` -/
  | item (e : Expr) (index : Expr)
  /-- The bounds of a slice that are given. -/
  | slice (bounds : List Expr)
  /-- `e | name(args)`; `extra` says whether there are keyword or spread arguments. -/
  | filter (e : Expr) (name : String) (args : List Expr) (extra : Bool)
  | test (e : Expr) (name : String) (args : List Expr)
  | call (e : Expr) (args : List Expr)
  | unary (op : String) (e : Expr)
  | binary (op : String) (left right : Expr)
  | conditional (value condition : Expr) (otherwise : List Expr)
  | tuple (items : List Expr)
  | list (items : List Expr)
  | dict (entries : List Expr)

/-- Arguments of a call: the plain ones, and whether there are others. -/
structure Arguments where
  plain : List Expr
  extra : Bool

def constant? (s : String) : Option Literal :=
  if s = "true" ∨ s = "True" then some (.bool true)
  else if s = "false" ∨ s = "False" then some (.bool false)
  else if s = "none" ∨ s = "None" then some .null
  else none

/-- The operator of a level at the front: 0 and 1 disjunction and conjunction, 3 comparisons, 4 sums,
5 concatenation, 6 products, 7 powers. -/
def operatorAt? (level : Nat) : List Lexeme → Option (String × List Lexeme)
  | .name s :: rest =>
    if level = 0 ∧ s = "or" ∨ level = 1 ∧ s = "and" ∨ level = 3 ∧ s = "in" then some (s, rest)
    else
      match s, rest with
      | "not", .name "in" :: rest => if level = 3 then some ("not in", rest) else none
      | _, _ => none
  | .symbol s :: rest =>
    let here :=
      match level with
      | 3 => ["==", "!=", "<", "<=", ">", ">="]
      | 4 => ["+", "-"]
      | 5 => ["~"]
      | 6 => ["*", "/", "//", "%"]
      | 7 => ["**"]
      | _ => []
    if here.contains s then some (s, rest) else none
  | _ => none

/-- Whether a comparison looks at the lexeme behind the next one, and that cannot be read. -/
def peeks? (level : Nat) : List Lexeme → Option TemplateFault
  | .name "not" :: .stop f :: _ => if level = 3 then some f else none
  | _ => none

/-- Whether a tuple ends here: before a closing parenthesis, at the end of the tag, before a given word. -/
def tupleEnds (enders : List String) : List Lexeme → Bool
  | .close :: _ => true
  | .symbol s :: _ => s == ")"
  | .name s :: _ => enders.contains s
  | _ => false

def dottedName : (fuel : Nat) → Reader String
  | 0, ts => failAt ts
  | fuel + 1, .name s :: .symbol "." :: ts => do
    let (t, ts) ← dottedName fuel ts
    return (s ++ "." ++ t, ts)
  | _, .name s :: ts => .ok (s, ts)
  | _, ts => failAt ts

def adjacentTexts : List Lexeme → String × List Lexeme
  | .text s :: rest =>
    let (t, rest) := adjacentTexts rest
    (s ++ t, rest)
  | rest => ("", rest)

def startsArgument : List Lexeme → Bool
  | .name s :: _ => !(["else", "or", "and"].contains s)
  | .text _ :: _ => true
  | .int _ :: _ => true
  | .float _ :: _ => true
  | .symbol s :: _ => ["(", "[", "\x7b"].contains s
  | _ => false

/-- After a spread mapping nothing may follow but a comma. -/
def lastArguments (as : Arguments) : Reader Arguments
  | .symbol ")" :: ts => .ok (as, ts)
  | .symbol "," :: .symbol ")" :: ts => .ok (as, ts)
  | .symbol "," :: .name _ :: ts => failAt ts
  | .symbol "," :: ts => failAt ts
  | ts => failAt ts

mutual

/-- An expression, with a trailing condition where `conditional` allows one. -/
def expression : (fuel : Nat) → (conditional : Bool) → Reader Expr
  | 0, _, ts => failAt ts
  | fuel + 1, conditional, ts => do
    let (e, ts) ← operation fuel 0 ts
    if conditional then conditionTail fuel e ts else return (e, ts)

def conditionTail : (fuel : Nat) → Expr → Reader Expr
  | 0, _, ts => failAt ts
  | fuel + 1, e, .name "if" :: ts => do
    let (c, ts) ← operation fuel 0 ts
    match ts with
    | .name "else" :: ts =>
      let (o, ts) ← expression fuel true ts
      conditionTail fuel (.conditional e c [o]) ts
    | ts => conditionTail fuel (.conditional e c []) ts
  | _, e, ts => .ok (e, ts)

/-- Operations from `level` on; level 2 is negation and level 8 a single operand. -/
def operation : (fuel : Nat) → (level : Nat) → Reader Expr
  | 0, _, ts => failAt ts
  | fuel + 1, level, ts =>
    if level = 8 then operand fuel true ts
    else if level = 2 then
      match ts with
      | .name "not" :: ts => do
        let (e, ts) ← operation fuel 2 ts
        return (.unary "not" e, ts)
      | ts => operation fuel 3 ts
    else do
      let (e, ts) ← operation fuel (level + 1) ts
      operationTail fuel level e ts

def operationTail : (fuel : Nat) → (level : Nat) → Expr → Reader Expr
  | 0, _, _, ts => failAt ts
  | fuel + 1, level, left, ts =>
    match operatorAt? level ts with
    | some (op, ts) => do
      let (right, ts) ← operation fuel (level + 1) ts
      operationTail fuel level (.binary op left right) ts
    | none =>
      match peeks? level ts with
      | some f => .error f
      | none => .ok (left, ts)

/-- A signed or plain operand with its subscripts, calls and, where allowed, filters and tests. -/
def operand : (fuel : Nat) → (filters : Bool) → Reader Expr
  | 0, _, ts => failAt ts
  | fuel + 1, filters, ts => do
    let (e, ts) ← match ts with
      | .symbol "-" :: ts => (operand fuel false ts).map fun (e, ts) => (.unary "-" e, ts)
      | .symbol "+" :: ts => (operand fuel false ts).map fun (e, ts) => (.unary "+" e, ts)
      | ts => primary fuel ts
    let (e, ts) ← subscripts fuel e ts
    if filters then filterTail fuel e ts else return (e, ts)

def primary : (fuel : Nat) → Reader Expr
  | 0, ts => failAt ts
  | fuel + 1, ts =>
    match ts with
    | .name s :: ts =>
      match constant? s with
      | some l => .ok (.literal l, ts)
      | none => .ok (.name s, ts)
    | .text _ :: _ =>
      let (s, ts) := adjacentTexts ts
      .ok (.literal (.text s), ts)
    | .int n :: ts => .ok (.literal (.int n), ts)
    | .float x :: ts => .ok (.literal (.float x), ts)
    | .symbol "(" :: ts => do
      let (e, ts) ← tuple fuel true [] true ts
      return (e, ← symbol ")" ts)
    | .symbol "[" :: ts => (listItems fuel [] ts).map fun (es, ts) => (.list es, ts)
    | .symbol "\x7b" :: ts => (dictEntries fuel [] ts).map fun (es, ts) => (.dict es, ts)
    | ts => failAt ts

/-- Expressions with commas between them. `enders` are words before which the tuple ends, `enclosed`
allows it to be empty. -/
def tuple : (fuel : Nat) → (conditional : Bool) → (enders : List String) → (enclosed : Bool) → Reader Expr
  | 0, _, _, _, ts => failAt ts
  | fuel + 1, conditional, enders, enclosed, ts =>
    if tupleEnds enders ts then (if enclosed then .ok (.tuple [], ts) else failAt ts)
    else do
      let (e, ts) ← expression fuel conditional ts
      match ts with
      | .symbol "," :: ts => (tupleTail fuel conditional enders [e] ts).map fun (es, ts) => (.tuple es, ts)
      | ts => return (e, ts)

def tupleTail : (fuel : Nat) → (conditional : Bool) → (enders : List String) → List Expr → Reader (List Expr)
  | 0, _, _, _, ts => failAt ts
  | fuel + 1, conditional, enders, acc, ts =>
    if tupleEnds enders ts then .ok (acc.reverse, ts)
    else do
      let (e, ts) ← expression fuel conditional ts
      match ts with
      | .symbol "," :: ts => tupleTail fuel conditional enders (e :: acc) ts
      | ts => return ((e :: acc).reverse, ts)

def listItems : (fuel : Nat) → List Expr → Reader (List Expr)
  | 0, _, ts => failAt ts
  | fuel + 1, acc, ts =>
    match ts with
    | .symbol "]" :: ts => .ok (acc.reverse, ts)
    | ts => do
      let (e, ts) ← expression fuel true ts
      match ts with
      | .symbol "]" :: ts => return ((e :: acc).reverse, ts)
      | .symbol "," :: ts => listItems fuel (e :: acc) ts
      | ts => failAt ts

def dictEntries : (fuel : Nat) → List Expr → Reader (List Expr)
  | 0, _, ts => failAt ts
  | fuel + 1, acc, ts =>
    match ts with
    | .symbol "\x7d" :: ts => .ok (acc.reverse, ts)
    | ts => do
      let (k, ts) ← expression fuel true ts
      let (v, ts) ← expression fuel true (← symbol ":" ts)
      match ts with
      | .symbol "\x7d" :: ts => return ((v :: k :: acc).reverse, ts)
      | .symbol "," :: ts => dictEntries fuel (v :: k :: acc) ts
      | ts => failAt ts

def subscripts : (fuel : Nat) → Expr → Reader Expr
  | 0, _, ts => failAt ts
  | fuel + 1, e, ts =>
    match ts with
    | .symbol "." :: .name s :: ts => subscripts fuel (.attribute e s) ts
    | .symbol "." :: .int n :: ts => subscripts fuel (.item e (.literal (.int n))) ts
    | .symbol "." :: .stop f :: _ => .error f
    -- what stands in the place of a member is passed before it is looked at
    | .symbol "." :: _ :: ts => failAt ts
    | .symbol "[" :: .symbol "]" :: ts => subscripts fuel (.item e (.tuple [])) ts
    | .symbol "[" :: ts => do
      let (i, ts) ← index fuel ts
      let (is, ts) ← indexTail fuel [i] ts
      match is with
      | [i] => subscripts fuel (.item e i) ts
      | is => subscripts fuel (.item e (.tuple is)) ts
    | .symbol "(" :: ts => do
      let (as, ts) ← arguments fuel false ⟨[], false⟩ ts
      subscripts fuel (.call e as.plain) ts
    | ts => .ok (e, ts)

def indexTail : (fuel : Nat) → List Expr → Reader (List Expr)
  | 0, _, ts => failAt ts
  | fuel + 1, acc, ts =>
    match ts with
    | .symbol "]" :: ts => .ok (acc.reverse, ts)
    | .symbol "," :: ts => do
      let (i, ts) ← index fuel ts
      indexTail fuel (i :: acc) ts
    | ts => failAt ts

def index : (fuel : Nat) → Reader Expr
  | 0, ts => failAt ts
  | fuel + 1, ts =>
    match ts with
    | .symbol ":" :: ts => sliceTail fuel [] ts
    | ts => do
      let (e, ts) ← expression fuel true ts
      match ts with
      | .symbol ":" :: ts => sliceTail fuel [e] ts
      | ts => return (e, ts)

def sliceTail : (fuel : Nat) → List Expr → Reader Expr
  | 0, _, ts => failAt ts
  | fuel + 1, acc, ts => do
    let (acc, ts) ← match ts with
      | .symbol ":" :: _ => .ok (acc, ts)
      | ts => sliceBound fuel acc ts
    match ts with
    | .symbol ":" :: ts =>
      let (acc, ts) ← sliceBound fuel acc ts
      return (.slice acc.reverse, ts)
    | ts => return (.slice acc.reverse, ts)

def sliceBound : (fuel : Nat) → List Expr → Reader (List Expr)
  | 0, _, ts => failAt ts
  | fuel + 1, acc, ts =>
    match ts with
    | .symbol "]" :: _ => .ok (acc, ts)
    | .symbol "," :: _ => .ok (acc, ts)
    | ts => (expression fuel true ts).map fun (e, ts) => (e :: acc, ts)

/-- The arguments of a call after its opening parenthesis: plain ones, then keywords, a spread list and
a spread mapping. `spread` says which of the two spreads came already. -/
def arguments : (fuel : Nat) → (spread : Bool) → Arguments → Reader Arguments
  | 0, _, _, ts => failAt ts
  | fuel + 1, spread, as, ts =>
    match ts with
    | .symbol ")" :: ts => .ok (as, ts)
    | .symbol "*" :: ts =>
      if spread then .error .malformed
      else do
        let (_, ts) ← expression fuel true ts
        argumentTail fuel true { as with extra := true } ts
    | .symbol "**" :: ts => do
      let (_, ts) ← expression fuel true ts
      lastArguments { as with extra := true } ts
    | .name _ :: .symbol "=" :: ts => do
      let (_, ts) ← expression fuel true ts
      argumentTail fuel spread { as with extra := true } ts
    -- a name is passed to see whether it is a keyword
    | .name _ :: .stop f :: _ => .error f
    | ts =>
      if as.extra then failAt ts
      else do
        let (e, ts) ← expression fuel true ts
        argumentTail fuel spread { as with plain := as.plain ++ [e] } ts

def argumentTail : (fuel : Nat) → (spread : Bool) → Arguments → Reader Arguments
  | 0, _, _, ts => failAt ts
  | fuel + 1, spread, as, ts =>
    match ts with
    | .symbol ")" :: ts => .ok (as, ts)
    | .symbol "," :: ts => arguments fuel spread as ts
    | ts => failAt ts

def filterTail : (fuel : Nat) → Expr → Reader Expr
  | 0, _, ts => failAt ts
  | fuel + 1, e, ts =>
    match ts with
    | .symbol "|" :: ts => do
      let ((name, as), ts) ← filterName fuel ts
      filterTail fuel (.filter e name as.plain as.extra) ts
    | .name "is" :: ts => do
      let (e, ts) ← test fuel e ts
      filterTail fuel e ts
    | .symbol "(" :: ts => do
      let (as, ts) ← arguments fuel false ⟨[], false⟩ ts
      filterTail fuel (.call e as.plain) ts
    | ts => .ok (e, ts)

def filterName : (fuel : Nat) → Reader (String × Arguments)
  | 0, ts => failAt ts
  | fuel + 1, ts => do
    let (name, ts) ← dottedName fuel ts
    match ts with
    | .symbol "(" :: ts =>
      let (as, ts) ← arguments fuel false ⟨[], false⟩ ts
      return ((name, as), ts)
    | ts => return ((name, ⟨[], false⟩), ts)

def test : (fuel : Nat) → Expr → Reader Expr
  | 0, _, ts => failAt ts
  | fuel + 1, e, ts => do
    let (negated, ts) := match ts with
      | .name "not" :: ts => (true, ts)
      | ts => (false, ts)
    let (name, ts) ← dottedName fuel ts
    let (as, ts) ← match ts with
      | .symbol "(" :: ts => (arguments fuel false ⟨[], false⟩ ts).map fun (as, ts) => (as.plain, ts)
      -- tests are not chained
      | .name "is" :: _ => .error .malformed
      | ts =>
        if startsArgument ts then do
          let (a, ts) ← primary fuel ts
          let (a, ts) ← subscripts fuel a ts
          pure ([a], ts)
        else pure ([], ts)
    let e := Expr.test e name as
    return (if negated then .unary "not" e else e, ts)

end

/-- Fuel for any parse: between two lexemes the parser calls itself fewer than twenty times. -/
def fuelFor (ts : List Lexeme) : Nat := 20 * (ts.length + 2)

end Workflow.Template
