import SessionGuard.Json.Basic

/-!
# Answers for programs

A result in JSON comes with the command it is from, the moment it was made and the version of the
program.
-/

namespace SessionGuard.Envelope

/-- The version of the program. -/
def version : String := "0.1.0"

/-- A result with what is known about it. -/
def wrap (command stamp : String) (data : Json) : Json :=
  .object
    [("data", data),
      ("meta", .object
        [("command", .string command), ("timestamp", .string stamp),
          ("version", .string version)])]

/-- The text of a result. -/
def text (command stamp : String) (data : Json) : String := (wrap command stamp data).pretty

end SessionGuard.Envelope
