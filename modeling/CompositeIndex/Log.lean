/-!
# Log lines

What a component does besides answering is told in log lines: a level and a text.
-/

namespace CompositeIndex

/-- How important a log line is. -/
inductive LogLevel
  | debug
  | info
  | warn
  | error
  deriving DecidableEq, Repr

def LogLevel.text : LogLevel → String
  | .debug => "DEBUG"
  | .info => "INFO"
  | .warn => "WARN"
  | .error => "ERROR"

/-- One line of the log. -/
structure LogLine where
  level : LogLevel
  text : String
  deriving DecidableEq, Repr

namespace LogLine

/-- A line that only helps to follow the program. -/
def debug (text : String) : LogLine := ⟨.debug, text⟩

/-- A line about an ordinary event. -/
def info (text : String) : LogLine := ⟨.info, text⟩

/-- A line about something that was passed over. -/
def warn (text : String) : LogLine := ⟨.warn, text⟩

/-- A line about something that failed for good. -/
def error (text : String) : LogLine := ⟨.error, text⟩

def render (line : LogLine) : String :=
  line.level.text ++ " " ++ line.text

end LogLine
end CompositeIndex
