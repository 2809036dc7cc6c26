/-!
# Coloured text

A terminal shows a text in a style between a sequence that turns the style on and one that turns
all styles off.
-/

namespace SessionGuard.Text

inductive Style
  | green
  | yellow
  | cyan
  | bold
  | dimmed
  deriving DecidableEq

namespace Style

/-- The number of a style. -/
def code : Style → String
  | green => "32"
  | yellow => "33"
  | cyan => "36"
  | bold => "1"
  | dimmed => "2"

/-- What turns a style on. -/
def start (s : Style) : String := "\x1b[" ++ s.code ++ "m"

/-- What turns all styles off. -/
def reset : String := "\x1b[0m"

/-- A text in which a style is turned on again wherever all styles were turned off. -/
def resume (s : Style) (text : String) : String :=
  (reset ++ s.start).intercalate (text.splitOn reset)

/-- A text in a style, if styles are shown. -/
def paint (shown : Bool) (s : Style) (text : String) : String :=
  if shown then s.start ++ s.resume text ++ reset else text

end Style

end SessionGuard.Text
