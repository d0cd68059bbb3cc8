import Workflow.Predicate
import Workflow.Predicate.Token

/-!
# Reading predicates

    predicate := [EXISTS table WHERE] clause (AND clause)*
    clause    := column operator value | column [NOT] IN ( value (, value)* ) | column IS [NOT] NULL
    value     := string | number | TRUE | FALSE | NULL | word | template | :param

Keywords count in any letter case. A quoted text with two opening braces is a template where templates
are allowed, and a literal elsewhere.
-/

namespace Workflow.Predicate

/-- What stops the reading of a predicate: a cause of its own, a template that is none, or a number with too many
digits. -/
inductive ReadFault where
  | cause (c : Cause)
  | template (source : String) (f : TemplateFault)
  | breakdown (b : Breakdown)

def holdsBraces : List Char → Bool
  | '\x7b' :: '\x7b' :: _ => true
  | _ :: rest => holdsBraces rest
  | [] => false

/-- The content of a quoted text, doubled quotes undone. -/
def undouble : List Char → List Char
  | c :: d :: rest =>
    if c = singleQuote ∧ d = singleQuote then c :: undouble rest else c :: undouble (d :: rest)
  | rest => rest

def stringContent (cs : List Char) : List Char := undouble (cs.drop 1).dropLast

def isFloatText (cs : List Char) : Bool := cs.any fun c => c == '.' || c == 'e' || c == 'E'

def readInt : List Char → Except Breakdown Int
  | '-' :: ds => (readDigits ds).map fun n => -Int.ofNat n
  | ds => (readDigits ds).map Int.ofNat

def readExponent : List Char → Int
  | _ :: '-' :: ds => -(decimalNumeral ds : Int)
  | _ :: '+' :: ds => decimalNumeral ds
  | _ :: ds => decimalNumeral ds
  | [] => 0

def readUnsignedFloat (negative : Bool) (cs : List Char) : Binary64 :=
  let whole := cs.takeWhile isDecimal
  let rest := cs.dropWhile isDecimal
  let (fraction, rest) := match rest with
    | '.' :: r => (r.takeWhile isDecimal, r.dropWhile isDecimal)
    | r => ([], r)
  .ofDecimal negative (decimalNumeral (whole ++ fraction)) (readExponent rest - fraction.length)

def readFloat : List Char → Binary64
  | '-' :: cs => readUnsignedFloat true cs
  | cs => readUnsignedFloat false cs

/-- A number that is whole has a limit to its digits. -/
def readNumber (cs : List Char) : Except Breakdown Scalar :=
  if isFloatText cs then .ok (.float (readFloat cs)) else (readInt cs).map .int

def templateOperand (source : String) : Except ReadFault Operand :=
  match Template.parse source with
  | .ok t => .ok (.template t)
  | .error f => .error (.template source f)

def numberOperand (cs : List Char) : Except ReadFault Operand := ((readNumber cs).map .literal).mapError .breakdown

def fail {α : Type} (c : Cause) : Except ReadFault α := .error (.cause c)

/-- The value of a word that is no keyword, before `next`. -/
def wordOperand (t : Token) (next : Option Token) : Except ReadFault Operand :=
  if t.chars.contains '.' then fail (.columnValue t.text)
  else if (next.map Token.kind) = some .leftParen then fail (.functionCall t.text)
  else .ok (.literal (.text t.text))

def operandOf (templates : Bool) (t : Token) (next : Option Token) : Except ReadFault Operand :=
  match t.kind with
  | .string =>
    let content := stringContent t.chars
    if templates && holdsBraces content then templateOperand (String.ofList content)
    else .ok (.literal (.text (String.ofList content)))
  | .number => numberOperand t.chars
  | .template => if templates then templateOperand t.text else fail .templateHere
  | .param => .ok (.param (String.ofList (t.chars.drop 1)))
  | .word =>
    match t.keyword? with
    | some .true => .ok (.literal (.bool true))
    | some .false => .ok (.literal (.bool false))
    | some .null => .ok (.literal .null)
    | some _ => fail (.keywordValue t.text)
    | none => wordOperand t next
  | _ => fail (.expected "value" t.text)

def columnOf (t : Token) : Except ReadFault Column :=
  if t.kind = .leftParen then fail .parentheses
  else if t.kind ≠ .word ∨ t.keyword? ≠ none then fail (.expected "column" t.text)
  else
    match textParts '.' t.text with
    | [name] => .ok ⟨none, name⟩
    | [table, name] => .ok ⟨some table, name⟩
    | _ => fail (.deepColumn t.text)

def operatorOf (cs : List Char) : Operator :=
  match cs with
  | ['='] => .eq
  | ['<'] => .lt
  | ['<', '='] => .le
  | ['>'] => .gt
  | ['>', '='] => .ge
  | _ => .ne

/-- The operands of a list after its opening parenthesis, and the tokens after the closing one. -/
def operandList (templates : Bool) : List Token → Except ReadFault (List Operand × List Token)
  | [] => fail (.ended "value")
  | [t] => do
    let _ ← operandOf templates t none
    fail (.ended "',' or ')'")
  | t :: s :: rest => do
    let o ← operandOf templates t (some s)
    if s.kind = .rightParen then return ([o], rest)
    else if s.kind = .comma then
      let (os, rest) ← operandList templates rest
      return (o :: os, rest)
    else fail (.expected "',' or ')'" s.text)

/-- A membership condition after its `IN`. -/
def membership (templates : Bool) (c : Column) (negated : Bool) :
    List Token → Except ReadFault (Condition × List Token)
  | [] => fail (.ended "(")
  | t :: rest =>
    if t.kind = .leftParen then do
      let (os, rest) ← operandList templates rest
      return (.membership c negated os, rest)
    else fail (.expected "'(' after IN" t.text)

def expectKeyword (k : Keyword) (name : String) : List Token → Except ReadFault (List Token)
  | [] => fail (.ended name)
  | t :: rest => if t.keyword? = some k then .ok rest else fail (.expected name t.text)

def nullTest (c : Column) : List Token → Except ReadFault (Condition × List Token)
  | [] => fail (.ended "NULL")
  | t :: rest =>
    if t.keyword? = some .not then do
      let rest ← expectKeyword .null "NULL" rest
      return (.comparison c .notNull (.literal .null), rest)
    else do
      let rest ← expectKeyword .null "NULL" (t :: rest)
      return (.comparison c .isNull (.literal .null), rest)

def comparison (templates : Bool) (c : Column) (op : Operator) :
    List Token → Except ReadFault (Condition × List Token)
  | [] => fail (.ended "value")
  | t :: rest => do
    let o ← operandOf templates t rest.head?
    return (.comparison c op o, rest)

def noOperator {α : Type} (c : Column) (t : Token) : Except ReadFault α :=
  if t.kind = .leftParen then fail (.functionCall c.text)
  else fail (.expected s!"operator after {c.text}" t.text)

def conditionOf (templates : Bool) (c : Column) : List Token → Except ReadFault (Condition × List Token)
  | [] => fail (.ended "operator")
  | t :: rest =>
    if t.kind = .operator then comparison templates c (operatorOf t.chars) rest
    else
      match t.keyword? with
      | some .is => nullTest c rest
      | some .in => membership templates c false rest
      | some .not =>
        match rest with
        | [] => fail (.ended "IN")
        | s :: rest => if s.keyword? = some .in then membership templates c true rest else noOperator c s
      | _ => noOperator c t

def clause (templates : Bool) : List Token → Except ReadFault (Condition × List Token)
  | [] => fail (.ended "column")
  | t :: rest => do conditionOf templates (← columnOf t) rest

/-- Clauses with `AND` between them, up to the end. -/
def clauses (templates : Bool) : (fuel : Nat) → List Token → Except ReadFault (List Condition)
  | 0, _ => fail (.ended "column")
  -- a clause takes a token at least, so the number of tokens is fuel enough
  | fuel + 1, ts => do
    let (c, rest) ← clause templates ts
    match rest with
    | [] => return [c]
    | t :: rest =>
      match t.keyword? with
      | some .and => return c :: (← clauses templates fuel rest)
      | some .or => fail .disjunction
      | _ => fail (.leftover t.text)

def allClauses (templates : Bool) (ts : List Token) : Except ReadFault (List Condition) :=
  clauses templates (ts.length + 1) ts

def tableOf (t : Token) : Except ReadFault String :=
  if t.kind ≠ .word ∨ t.keyword? ≠ none ∨ t.chars.contains '.' then
    fail (.expected "table name after EXISTS" t.text)
  else .ok t.text

def ofTokens (templates : Bool) : List Token → Except ReadFault Predicate
  | [] => fail .empty
  | t :: rest =>
    if t.keyword? = some .exists then
      match rest with
      | [] => fail (.ended "table name")
      | name :: rest => do
        let table ← tableOf name
        let rest ← expectKeyword .where "WHERE" rest
        return ⟨some table, ← allClauses templates rest⟩
    else return ⟨none, ← allClauses templates (t :: rest)⟩

def read (templates : Bool) (cs : List Char) : Except ReadFault Predicate :=
  match tokens cs with
  | .error stop => fail (.input stop.offset (String.ofList (stop.rest.take 10)))
  | .ok ts => ofTokens templates ts

def ReadFault.within (expression : String) : ReadFault → ExpressionFault
  | cause c => .predicate expression c
  | template source f => .template source f
  | breakdown b => .breakdown b

def parseWith (templates : Bool) (expression : String) : Except ExpressionFault Predicate :=
  match read templates expression.toList with
  | .ok p => .ok p
  | .error f => .error (f.within expression)

/-- Read a predicate as it stands in a manifest. -/
def parse (expression : String) : Except ExpressionFault Predicate := parseWith true expression

/-- Read a rendered clause, where every quoted text is a literal. -/
def parseClause (expression : String) : Except ExpressionFault Predicate := parseWith false expression

end Workflow.Predicate
