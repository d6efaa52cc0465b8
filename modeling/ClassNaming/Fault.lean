/-
Everything that can go wrong, by cause, with the label a failed task is reported under and the wording of the message.

The causes about the shape of data (a missing attribute, a value that cannot be walked) name the type of the value as
`Value.typeName` does.
-/
import ClassNaming.Decimal.Layout
import ClassNaming.Naming.Kind
import ClassNaming.Text.Quoted

namespace ClassNaming

/-- why an operation on a file failed -/
inductive FileError where
  | missing
  | exists
  | notDirectory
  | isDirectory
deriving DecidableEq, Repr

def FileError.number : FileError → Nat
  | .missing => 2
  | .exists => 17
  | .notDirectory => 20
  | .isDirectory => 21

def FileError.reason : FileError → String
  | .missing => "No such file or directory"
  | .exists => "File exists"
  | .notDirectory => "Not a directory"
  | .isDirectory => "Is a directory"

def FileError.label : FileError → String
  | .missing => "FileNotFoundError"
  | .exists => "FileExistsError"
  | .notDirectory => "NotADirectoryError"
  | .isDirectory => "IsADirectoryError"

/-- why bytes are no text -/
inductive ByteFault where
  | badStart
  | badContinuation
  | cutShort
deriving DecidableEq, Repr

def ByteFault.reason : ByteFault → String
  | .badStart => "invalid start byte"
  | .badContinuation => "invalid continuation byte"
  | .cutShort => "unexpected end of data"

/-- a cause of failure -/
inductive Fault where
  | noAttribute (type name : String)
  | notIterable (type : String)
  | notSubscriptable (type : String)
  /-- a text asked for a field -/
  | textIndex
  /-- a list asked for a field -/
  | listIndex
  /-- an item of a list of texts that is no text -/
  | notText (index : Nat) (type : String)
  /-- something put after a text that is no text -/
  | notJoinable (type : String)
  | unhashable (type : String)
  | noContainer (type : String)
  /-- a key that is not there, as it is quoted -/
  | noKey (quoted : String)
  | indexOutOfRange
  /-- a word that names no kind, as it is quoted -/
  | noKind (quoted : String)
  | duplicateGrammar (kind : Kind)
  /-- a custom utility that cannot be read -/
  | badUtility (index : Nat) (source reason : String)
  /-- one text in place of a list of custom utilities -/
  | singleUtility
  /-- a pattern source that cannot be read -/
  | badPattern (message : String)
  | hugeCount
  | flagConflict
  /-- a flag that is neither true nor false, as it is quoted -/
  | badFlag (key quoted : String)
  | extensionTaken (extension owner name : String)
  | unknownFormat (shown : String)
  /-- a worker setting out of range -/
  | badSetting (name bound : String)
  /-- a text that is no number or day, in the words of the reader -/
  | badNumber (message : String)
  /-- the root of a scan does not exist -/
  | noRoot (root : String)
  | file (cause : FileError) (path : String)
  /-- bytes `first` to `last` of a file are no text; `byte` is the first of them -/
  | undecodable (byte first last : Nat) (cause : ByteFault)
  /-- characters that an encoding cannot write -/
  | unencodable (codec shown place limit : String)
  | lint (message : String)
  | stopped (what : String)
  | taskFailed (name error : String)
  /-- an option of a constructor that does not exist -/
  | noOption (call name : String)
  /-- a failure of a task's own -/
  | raised (label message : String)
deriving DecidableEq, Repr

namespace Fault

/-- the label of a cause -/
def label : Fault → String
  | .noAttribute _ _ => "AttributeError"
  | .notIterable _ | .notSubscriptable _ | .textIndex | .listIndex | .notText _ _ | .notJoinable _ | .unhashable _
  | .noContainer _ | .singleUtility | .noOption _ _ => "TypeError"
  | .noKey _ => "KeyError"
  | .indexOutOfRange => "IndexError"
  | .noKind _ | .duplicateGrammar _ | .flagConflict | .badFlag _ _ | .extensionTaken _ _ _ | .unknownFormat _
  | .badSetting _ _ | .badNumber _ => "ValueError"
  | .badUtility _ _ _ => "CustomUtilityError"
  | .badPattern _ => "error"
  | .hugeCount => "OverflowError"
  | .noRoot _ => "FileNotFoundError"
  | .file cause _ => cause.label
  | .undecodable _ _ _ _ => "UnicodeDecodeError"
  | .unencodable _ _ _ _ => "UnicodeEncodeError"
  | .lint _ => "BiomeConfigError"
  | .stopped _ => "RuntimeError"
  | .taskFailed _ _ => "TaskFailedError"
  | .raised label _ => label

/-- two lower-case hexadecimal digits of a byte -/
def byteText (n : Nat) : String :=
  "0x" ++ String.ofList (Text.hexDigits 2 n)

/-- the wording of a cause -/
def message : Fault → String
  | .noAttribute type name => "'" ++ type ++ "' object has no attribute '" ++ name ++ "'"
  | .notIterable type => "'" ++ type ++ "' object is not iterable"
  | .notSubscriptable type => "'" ++ type ++ "' object is not subscriptable"
  | .textIndex => "string indices must be integers, not 'str'"
  | .listIndex => "list indices must be integers or slices, not str"
  | .notText index type => "sequence item " ++ natText index ++ ": expected str instance, " ++ type ++ " found"
  | .notJoinable type => "can only concatenate str (not \"" ++ type ++ "\") to str"
  | .unhashable type => "unhashable type: '" ++ type ++ "'"
  | .noContainer type => "argument of type '" ++ type ++ "' is not iterable"
  | .noKey quoted => quoted
  | .indexOutOfRange => "list index out of range"
  | .noKind quoted => quoted ++ " is not a valid ClassKind"
  | .duplicateGrammar kind => "Duplicate grammar for kind " ++ kind.word
  | .badUtility index source reason =>
    "Invalid custom utility pattern #" ++ natText index ++ " " ++ Text.quoted source ++ ": " ++ reason
  | .singleUtility => "custom_utilities must be a sequence of pattern strings, not a single str"
  | .badPattern message => message
  | .hugeCount => "the repetition number is too large"
  | .flagConflict => "ASCII and UNICODE flags are incompatible"
  | .badFlag key quoted => key ++ " must be true or false, got " ++ quoted
  | .extensionTaken extension owner name =>
    "Extension " ++ extension ++ " already registered to " ++ owner ++ ", cannot register to " ++ name
  | .unknownFormat shown => "Unknown format '" ++ shown ++ "'. Valid: list, summary, json"
  | .badSetting name bound => name ++ " must be " ++ bound
  | .badNumber message => message
  | .noRoot root => "No such file or directory: " ++ root
  | .file cause path => "[Errno " ++ natText cause.number ++ "] " ++ cause.reason ++ ": " ++ Text.quoted path
  | .undecodable byte first last cause =>
    let what := if first == last then "byte " ++ byteText byte ++ " in position " ++ natText first
      else "bytes in position " ++ natText first ++ "-" ++ natText last
    "'utf-8' codec can't decode " ++ what ++ ": " ++ cause.reason
  | .unencodable codec shown place limit =>
    "'" ++ codec ++ "' codec can't encode " ++ shown ++ " in position " ++ place ++ ": " ++ limit
  | .lint message => message
  | .stopped what => what ++ " is shut down"
  | .taskFailed name error => "Task " ++ name ++ " failed: " ++ error
  | .noOption call name => call ++ " got an unexpected keyword argument '" ++ name ++ "'"
  | .raised _ message => message

end Fault

end ClassNaming
