/-
What is asked of the language of settings files.

- `LawfulCodec`: no mapping that is read has a key twice, and no text that is written has a carriage return.
- `Codec.Kept`: a value that comes back when the text written for it is read.
-/
import ClassNaming.Proofs.Value.Layering
import ClassNaming.Settings.Codec

namespace ClassNaming

/-- a reader whose mappings have each key once, and a writer that ends lines with line feeds alone -/
class LawfulCodec [Codec] : Prop where
  keyed : ∀ {cs : List Char} {v : Value}, Codec.load cs = .ok v → v.Keyed
  noReturn : ∀ v : Value, '\r' ∉ Codec.dump v

/-- the value comes back when the text written for it is read -/
def Codec.Kept [Codec] (v : Value) : Prop := ∃ w, Codec.load (Codec.dump v) = .ok w ∧ w.Same v

end ClassNaming
