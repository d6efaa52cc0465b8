/-
The language that settings files are written in, as far as settings need it: a reader and a writer.

Everything about settings holds for any such language; which one it is stays open until the tool is put together.
Reading a text gives a value, or finds it malformed, which can be warned about, or ends in a fault that is none of the
reader's own. Every value of settings can be written, and its text depends on the value alone.
-/
import ClassNaming.Fault
import ClassNaming.Value.Basic

namespace ClassNaming

/-- why a text gives no value -/
inductive Unloaded where
  /-- the text breaks the rules of the language, in the words of its reader -/
  | malformed (reason : String)
  | fault (cause : Fault)
deriving DecidableEq, Repr

/-- a reader and a writer of settings files -/
class Codec where
  /-- the value that a text holds -/
  load : List Char → Except Unloaded Value
  /-- why a file whose bytes are not all text is malformed, if the reader finds that before it comes to such bytes -/
  early : List UInt8 → Option String
  /-- the text that is written for a value -/
  dump : Value → List Char

end ClassNaming
