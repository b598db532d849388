import Resumable.Settings.Basic
import Resumable.Toml.Text

/-!
# Writing settings

Settings are written as a TOML document of two tables. Numbers in TOML are signed, so that settings
whose first number is beyond their range cannot be written.

This models the `config` command's rendering of `Config`.
-/

namespace Resumable.Settings

/-- A line that gives a name its value. -/
def entryLine (name : String) (value : List Char) : List Char :=
  name.toList ++ " = ".toList ++ value ++ ['\n']

/-- The document of settings. -/
def document (s : Settings) : List Char :=
  "[engine]\n".toList ++
    entryLine "suspend_function" (Toml.renderString s.engine.suspendFunction) ++
    entryLine "first_continuation_id" (Text.decimal s.engine.firstId) ++
    "\n[logging]\n".toList ++
    entryLine "level" (Toml.renderString s.level)

/-- The text of settings, if they can be written. -/
def render? (s : Settings) : Option String :=
  if s.engine.firstId ≤ Text.maxSigned then some (String.ofList s.document) else none

end Resumable.Settings
