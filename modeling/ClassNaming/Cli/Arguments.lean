/-
Reading the words of a command line.

Each word is first read by itself: a name, a name with a value after an equals sign, an unambiguous start of a name,
short names in one word, an operand, or the double dash after which all words are operands. A word that starts with a
dash is still an operand if it looks like a negative number or has a blank in it. Then the words are taken from the left:
operands go to the command's operand the first time there are any, and what no place is found for is left over.
-/
import ClassNaming.Cli.Command
import ClassNaming.Text.Letter
import ClassNaming.Text.Quoted
import ClassNaming.Text.Search

namespace ClassNaming.Cli

/-- why the words are not taken as arguments: they ask for a text, or they are wrong -/
inductive Halt where
  | help
  | version
  | refused (message : String)
deriving DecidableEq, Repr

/-- a text in the word of a switch: after an equals sign, or right after a short name -/
inductive Attached where
  | none
  | signed (text : List Char)
  | joined (text : List Char)
deriving DecidableEq, Repr

/-- how a word reads -/
inductive Reading where
  | operand
  | dashes
  | switch (s : Switch) (attached : Attached)
  | unknown
deriving DecidableEq, Repr

namespace Reading

def isOperand : Reading → Bool
  | .operand => true
  | _ => false

def isDashes : Reading → Bool
  | .dashes => true
  | _ => false

/-- the word is a switch, known or not -/
def isSwitch : Reading → Bool
  | .switch _ _ | .unknown => true
  | _ => false

end Reading

/-- a minus sign, digits, and perhaps a point with digits after it; one line feed may follow -/
def looksNegative : List Char → Bool
  | '-' :: rest =>
    let number := if rest.getLast? == some '\n' then rest.dropLast else rest
    let isDigit (c : Char) : Bool := (Text.decimalDigit? c).isSome
    let whole := number.takeWhile isDigit
    match number.dropWhile isDigit with
    | [] => !whole.isEmpty
    | '.' :: part => !part.isEmpty && part.all isDigit
    | _ => false
  | _ => false

/-- the switches that a word may stand for, with the name it stands for and the text in it -/
def Command.candidates (c : Command) (word : List Char) : List (Switch × String × Attached) :=
  match word with
  | '-' :: '-' :: _ =>
    let start := word.takeWhile (· != '=')
    let attached := match word.dropWhile (· != '=') with
      | _ :: text => Attached.signed text
      | [] => .none
    (c.names.filter fun n => Text.startsWith start n.1.toList).map fun n => (n.2, n.1, attached)
  | dash :: letter :: text =>
    c.names.filterMap fun n =>
      if n.1.toList == [dash, letter] then some (n.2, n.1, .joined text)
      else if Text.startsWith word n.1.toList then some (n.2, n.1, .none)
      else none
  | _ => []

/-- how a word reads by itself -/
def Command.reading (c : Command) (word : String) : Except Halt Reading :=
  let cs := word.toList
  if cs.head? != some '-' then .ok .operand
  else match c.switch? word with
    | some s => .ok (.switch s .none)
    | none =>
      if cs.length == 1 then .ok .operand
      else
        let name := String.ofList (cs.takeWhile (· != '='))
        match cs.dropWhile (· != '='), c.switch? name with
        | _ :: text, some s => .ok (.switch s (.signed text))
        | _, _ =>
          match c.candidates cs with
          | [(s, _, attached)] => .ok (.switch s attached)
          | [] => .ok (if looksNegative cs || cs.contains ' ' then .operand else .unknown)
          | several =>
            .error (.refused ("ambiguous option: " ++ word ++ " could match "
              ++ ", ".intercalate (several.map fun found => found.2.1)))

/-- how the words of a line read; after a double dash all are operands -/
def Command.readings (c : Command) : List String → Except Halt (List (String × Reading))
  | [] => .ok []
  | word :: rest =>
    if word == "--" then .ok ((word, .dashes) :: rest.map fun w => (w, .operand))
    else do
      let reading ← c.reading word
      return (word, reading) :: (← c.readings rest)

/-- what a line says: values and flags by key, the operands once there are any, and the words left over -/
structure Arguments where
  values : List (String × String) := []
  flags : List String := []
  operands : Option (List String) := none
  left : List String := []
deriving Repr

namespace Arguments

def has (a : Arguments) (key : String) : Bool :=
  a.flags.contains key

/-- the last value given for a key -/
def value? (a : Arguments) (key : String) : Option String :=
  a.values.lookup key

def leaves (a : Arguments) (words : List String) : Arguments :=
  { a with left := a.left ++ words }

end Arguments

/-- the refusal of what is given for something -/
def refusal (title message : String) : Halt :=
  .refused ("argument " ++ title ++ ": " ++ message)

/-- the refusal of a word that is none of the choices -/
def badChoice (title word : String) (choices : List String) : Halt :=
  refusal title ("invalid choice: " ++ Text.quoted word ++ " (choose from "
    ++ ", ".intercalate (choices.map Text.quoted) ++ ")")

/-- do what a switch does -/
def Arguments.apply (a : Arguments) (s : Switch) (text : String) : Except Halt Arguments :=
  match s.effect with
  | .help => .error .help
  | .version => .error .version
  | .flag => .ok { a with flags := s.key :: a.flags }
  | .value _ choices =>
    if choices.isEmpty || choices.contains text then .ok { a with values := (s.key, text) :: a.values }
    else .error (badChoice s.title text choices)

/-- do what several switches do, in turn -/
def Arguments.applyAll (a : Arguments) : List (Switch × String) → Except Halt Arguments
  | [] => .ok a
  | (s, text) :: rest => do
    let a ← a.apply s text
    a.applyAll rest

/-- what one word of switches says -/
structure Cluster where
  /-- the switches with their texts -/
  set : List (Switch × String)
  /-- a rest of the word that no switch has -/
  left : List String
  /-- the word after it belongs to it -/
  takesNext : Bool

/-- take a switch and those joined to it in the same word; `next` is the operand after the word, if there is one -/
def Command.cluster (c : Command) (next : Option String) : Nat → Switch → Attached → Except Halt Cluster
  | fuel, s, attached =>
    match s.effect, attached with
    | .value _ _, .signed text | .value _ _, .joined text => .ok ⟨[(s, String.ofList text)], [], false⟩
    | .value _ _, .none =>
      match next with
      | some word => .ok ⟨[(s, word)], [], true⟩
      | none => .error (refusal s.title "expected one argument")
    | _, .none => .ok ⟨[(s, "")], [], false⟩
    | _, .signed text => .error (ignored s text)
    | _, .joined text =>
      match fuel, text with
      | fuel + 1, letter :: rest =>
        if letter == '-' then .error (ignored s text)
        else
          match c.switch? (String.ofList ['-', letter]) with
          | none => .ok ⟨[(s, "")], [String.ofList ('-' :: text)], false⟩
          | some other => do
            let attached := match rest with
              | [] => Attached.none
              | '=' :: more => .signed more
              | more => .joined more
            let others ← cluster c next fuel other attached
            return { others with set := (s, "") :: others.set }
      | _, _ => .error (ignored s text)
where
  ignored (s : Switch) (text : List Char) : Halt :=
    refusal s.title ("ignored explicit argument " ++ Text.quoted (String.ofList text))

/-- how many words the operand takes from the front -/
def Operand.count : Operand → List Reading → Nat
  | .none, _ => 0
  | .any _ _, words => (words.takeWhile (!·.isSwitch)).length
  | .one _ _, words =>
    let before := (words.takeWhile Reading.isDashes).length
    match words.drop before with
    | .operand :: rest => before + 1 + (rest.takeWhile Reading.isDashes).length
    | _ => 0
  | .command _ _ _, words =>
    match words.dropWhile Reading.isDashes with
    | .operand :: _ => words.length
    | _ => 0

/-- the words of an operand: the first double dash among them only marks their place -/
def Operand.words : Operand → List String → List String
  | .command _ _ _, words => words
  | _, words => words.erase "--"

/-- give the operand its words from the front, unless it has had them, and return the words after them -/
def Command.takeOperand (c : Command) (a : Arguments) (words : List (String × Reading)) :
    Arguments × List (String × Reading) :=
  match a.operands with
  | some _ => (a, words)
  | none =>
    let n := c.operand.count (words.map (·.2))
    let isAny := match c.operand with
      | .any _ _ => true
      | _ => false
    if n == 0 && !isAny then (a, words)
    else ({ a with operands := some (c.operand.words ((words.take n).map (·.1))) }, words.drop n)

/-- the operand that follows a word, if one does -/
def nextOperand? : List (String × Reading) → Option String
  | (word, .operand) :: _ => some word
  | _ => none

/-- take words from the left while there are switches among them; the fuel is their number -/
def Command.take (c : Command) : Nat → Arguments → List (String × Reading) → Except Halt Arguments
  | 0, a, words => .ok (a.leaves (words.map (·.1)))
  | fuel + 1, a, words =>
    if !words.any (·.2.isSwitch) then
      let (a, rest) := c.takeOperand a words
      .ok (a.leaves (rest.map (·.1)))
    else match words with
      | [] => .ok a
      | (word, .unknown) :: rest => c.take fuel (a.leaves [word]) rest
      | (word, .switch s attached) :: rest => do
        let cluster ← c.cluster (nextOperand? rest) word.length s attached
        let a ← (a.leaves cluster.left).applyAll cluster.set
        c.take fuel a (if cluster.takesNext then rest.tail else rest)
      | words =>
        let taken := c.takeOperand a words
        if taken.2.length < words.length then c.take fuel taken.1 taken.2
        else
          let isWord (entry : String × Reading) : Bool := !entry.2.isSwitch
          c.take fuel (a.leaves ((words.takeWhile isWord).map (·.1))) (words.dropWhile isWord)

/-- what the words of a line say to a command; an operand that must be there is asked for -/
def Command.arguments (c : Command) (words : List String) : Except Halt Arguments := do
  let readings ← c.readings words
  let a ← c.take (readings.length + 1) {} readings
  match c.operand, a.operands with
  | .one name _, none => throw (.refused ("the following arguments are required: " ++ name))
  | _, _ => return a

end ClassNaming.Cli
