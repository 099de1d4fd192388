import PanelExport.Numeral

/-!
# Arguments

The words of a command line. A grammar says which options there are and what may stand beside them.
An option may be shortened as long as no other one starts alike, and its value is the next word or
stands behind an equals sign. A negative number, a word with a space, and every word behind two
hyphens are no options.
-/

namespace PanelExport.Command

/-- What an option does. -/
inductive OptionKind where
  | help
  | version
  /-- It takes a value. -/
  | value (accepts : String → Bool)

/-- An option. -/
structure OptionSpec where
  name : String
  kind : OptionKind

/-- What may stand beside the options. -/
inductive Operands where
  | none
  /-- Any number of words. -/
  | many
  /-- The name of a command and everything behind it. -/
  | command
  deriving DecidableEq

/-- The options and what may stand beside them. -/
structure Grammar where
  options : List OptionSpec
  operands : Operands

/-- A text that stands in one word with its option: behind an equals sign, or directly. -/
structure Attached where
  text : String
  direct : Bool

/-- What a word is. -/
inductive Role where
  | plain
  | separator
  | option (kind : OptionKind) (name : String) (attached? : Option Attached)
  /-- It looks like an option, but there is none. -/
  | unknown

/-- What ends the reading of a command line early. -/
inductive Stop where
  | help
  | version
  /-- The words do not follow the grammar. -/
  | wrong
  deriving DecidableEq

/-- What was found among some words. -/
structure Scanned where
  /-- The values of options, the last one first. -/
  values : List (String × String)
  operands : List String
  /-- There were words that the grammar has no place for. -/
  surplus : Bool

/-- Nothing found yet. -/
def Scanned.nothing : Scanned := ⟨[], [], false⟩

/-- The value of an option. -/
def Scanned.value? (s : Scanned) (name : String) : Option String := s.values.lookup name

/-- Decimal digits, with at most one point in front of the last ones, behind a hyphen. A newline
may end the word. -/
def isNegativeNumber : List Char → Bool
  | '-' :: cs =>
    let cs := if cs.getLast? = some '\n' then cs.dropLast else cs
    match cs.span isDecimalDigit with
    | (whole, []) => !whole.isEmpty
    | (_, '.' :: fraction) => !fraction.isEmpty && fraction.all isDecimalDigit
    | _ => false
  | _ => false

/-- A word in front of and behind its first equals sign. -/
def splitValue (word : String) : String × Option Attached :=
  match word.toList.span (· ≠ '=') with
  | (name, _ :: text) => (String.ofList name, some ⟨String.ofList text, false⟩)
  | _ => (word, none)

namespace Grammar

/-- The option of a name. -/
def option? (g : Grammar) (name : String) : Option OptionSpec :=
  g.options.find? (·.name == name)

/-- The options that a word with hyphens in front may mean, apart from full names. -/
def meanings (g : Grammar) (word : String) : List Role :=
  if "--".toList.isPrefixOf word.toList then
    let (name, attached?) := splitValue word
    (g.options.filter fun o => name.toList.isPrefixOf o.name.toList).map fun o =>
      .option o.kind o.name attached?
  else
    let short := String.ofList (word.toList.take 2)
    (g.option? short).toList.map fun o =>
      .option o.kind o.name (some ⟨String.ofList (word.toList.drop 2), true⟩)

/-- What a word is that names no option in full. -/
def roleOfOther (g : Grammar) (word : String) : Except Stop Role :=
  match g.meanings word with
  | [role] => .ok role
  | _ :: _ => .error .wrong
  | [] =>
    .ok (if isNegativeNumber word.toList || word.toList.contains ' ' then .plain else .unknown)

/-- What a word is. A word that may mean several options is wrong. -/
def roleOf (g : Grammar) (word : String) : Except Stop Role :=
  match g.option? word with
  | some o => .ok (.option o.kind o.name none)
  | none =>
    if word.toList.head? ≠ some '-' ∨ word.length = 1 then .ok .plain
    else
      let (name, attached?) := splitValue word
      match attached?, g.option? name with
      | some _, some o => .ok (.option o.kind o.name attached?)
      | _, _ => g.roleOfOther word

/-- The words with what they are. -/
def roles (g : Grammar) : List String → Except Stop (List (String × Role))
  | [] => .ok []
  | word :: words =>
    if word = "--" then .ok ((word, .separator) :: words.map (·, .plain))
    else return (word, ← g.roleOf word) :: (← g.roles words)

/-- What comes of an option without a value. The letter of the short help may be repeated in one
word, and what else stands there is ignored unless it starts with a hyphen. -/
def stopOf (kind : Stop) : List Char → Stop
  | [] => .wrong
  | '-' :: _ => .wrong
  | ['h'] => kind
  | 'h' :: '=' :: _ => .wrong
  | 'h' :: cs => stopOf kind cs
  | _ => kind

/-- What ends the reading at an option without a value. -/
def stopAt (kind : Stop) : Option Attached → Stop
  | none => kind
  | some a => if a.direct then stopOf kind a.text.toList else .wrong

/-- What is found among words, after some of them. -/
def scan (g : Grammar) (found : Scanned) : List (String × Role) → Except Stop Scanned
  | [] => .ok found
  | (word, .plain) :: words =>
    match g.operands with
    | .none => g.scan { found with surplus := true } words
    | .many => g.scan { found with operands := found.operands ++ [word] } words
    | .command => .ok { found with operands := word :: words.map (·.1) }
  | (_, .separator) :: words =>
    match g.operands with
    | .none => g.scan { found with surplus := true } words
    | .many => g.scan found words
    | .command => .error .wrong
  | (_, .unknown) :: words => g.scan { found with surplus := true } words
  | (_, .option .help _ attached?) :: _ => .error (stopAt .help attached?)
  | (_, .option .version _ attached?) :: _ => .error (stopAt .version attached?)
  | (_, .option (.value accepts) name (some a)) :: words =>
    if accepts a.text then g.scan { found with values := (name, a.text) :: found.values } words
    else .error .wrong
  | (_, .option (.value accepts) name none) :: (value, .plain) :: words =>
    if accepts value then g.scan { found with values := (name, value) :: found.values } words
    else .error .wrong
  | (_, .option (.value _) _ none) :: _ => .error .wrong

/-- What is found among the words of a command line. -/
def read (g : Grammar) (words : List String) : Except Stop Scanned := do
  g.scan .nothing (← g.roles words)

end Grammar

end PanelExport.Command
