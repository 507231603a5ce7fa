import HostLisp.Text.Blank
import HostLisp.Text.UpperCase

/-!
Settings that the surroundings of a session give: the usual name of a source, and how much is
logged.
-/

namespace HostLisp

structure Settings where
  sourceName : Option String := none
  logLevel : Option String := none

namespace Settings

def usualName (settings : Settings) : String :=
  match settings.sourceName with
  | some name => if name.isEmpty then "<string>" else name
  | none => "<string>"

def warning : Int := 30

def levels : List (String × Int) :=
  [("CRITICAL", 50), ("FATAL", 50), ("ERROR", 40), ("WARN", warning), ("WARNING", warning),
    ("INFO", 20), ("DEBUG", 10), ("NOTSET", 0)]

/-- The level that is set, if one is. Blanks around its name and the case of letters do not matter,
and an unknown name stands for warnings. -/
def level (settings : Settings) : Option Int :=
  match settings.logLevel with
  | some name =>
    if name.isEmpty then none
    else some ((levels.lookup (Text.upperCase (Text.strip name))).getD warning)
  | none => none

def apply (settings : Settings) (before : Int) : Int := settings.level.getD before

end Settings

end HostLisp
