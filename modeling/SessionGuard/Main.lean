import SessionGuard.Cli.Run
import SessionGuard.Http.Wire
import Std.Async.DNS
import Std.Async.TCP
import Std.Time

/-!
# The program

Reads what a run depends on, runs the command, sends its requests, and writes what it has changed.
-/

namespace SessionGuard.Main

open Http (Delivery Exchange Request)
open Std.Async (Async)

/-! ## Files -/

/-- The path of a location. -/
def pathOf (l : Location) : String := "/" ++ "/".intercalate l

/-- The number of the error that a directory cannot be read as a file. -/
def directoryError : UInt32 := 21

/-- The entry at a location; a file that cannot be read has no permissions. -/
def entryAt (l : Location) : IO (Option Entry) := do
  match ← (IO.FS.readBinFile (pathOf l)).toBaseIO with
  | .ok content => pure (some (.file content 0o644))
  | .error (.inappropriateType _ code _) =>
    pure (if code = directoryError then some .directory else none)
  | .error (.permissionDenied ..) => pure (some (.file .empty 0))
  | .error _ => pure none

/-- The disk with all that a path leads through. -/
def observe (d : Disk) (path : String) : IO Disk := do
  let mut here := []
  let mut d := d
  for part in d.start path ++ Disk.steps path do
    if part = ".." then here := here.dropLast
    else if part ≠ "." then here := here ++ [part]
    if (d.find? here).isNone then
      match ← entryAt here with
      | some e => d := d.put here e
      | none => pure ()
  pure d

/-- Writes what has changed on a disk. -/
def commit (before after : Disk) : IO Unit := do
  for (location, entry) in after.entries do
    if before.find? location ≠ some entry then
      match entry with
      | .directory => IO.FS.createDir (pathOf location)
      | .file content mode =>
        IO.FS.writeBinFile (pathOf location) content
        if mode = .ownerOnly then
          IO.setAccessRights (pathOf location) ⟨⟨true, true, false⟩, ⟨false, false, false⟩,
            ⟨false, false, false⟩⟩

/-! ## Requests -/

/-- The addresses of a host. -/
def addresses (r : Request) : Async (List Std.Net.SocketAddress) := do
  let host := String.ofList ((r.url.host.map Host.text).getD [])
  let host := (host.dropWhile fun c => c = '[').toString
  let host := (host.takeWhile fun c => c ≠ ']').toString
  let found ← Std.Async.DNS.getAddrInfo host (toString r.port)
  pure <| found.toList.map fun
    | .v4 address => .v4 ⟨address, UInt16.ofNat r.port⟩
    | .v6 address => .v6 ⟨address, UInt16.ofNat r.port⟩

/-- A connection to the first address that can be reached. -/
def connect (r : Request) : Async (Option Std.Async.TCP.Socket.Client) := do
  for address in ← addresses r do
    try
      let client ← Std.Async.TCP.Socket.Client.mk
      client.connect address
      return some client
    catch _ => pure ()
  return none

/-- All that comes over a connection until it is closed. -/
partial def receive (client : Std.Async.TCP.Socket.Client) (bytes : ByteArray) :
    Async ByteArray := do
  match ← client.recv? 65536 with
  | some more => receive client (bytes ++ more)
  | none => pure bytes

/-- Sends a request over a connection of its own; nothing is sent in secret. -/
def deliver (r : Request) : IO Delivery := do
  if r.url.scheme ≠ "http" then return .refused
  let client? ← try (connect r).block catch _ => pure none
  match client? with
  | none => pure .refused
  | some client =>
    try
      let bytes ← (do
        client.sendAll #[r.bytes]
        receive client .empty : Async ByteArray).block
      pure (Delivery.ofBytes bytes.data.toList)
    catch _ => pure .dropped

/-- Runs an exchange with the requests that it sends. -/
def perform {α : Type} : Exchange α → IO α
  | .done a => pure a
  | .send r next => do
    let delivery ← deliver r
    perform (next delivery)

/-! ## Runs -/

/-- The variables that a run may depend on. -/
def environmentNames : List String :=
  ["SESSIONGATE_FORMAT", "SESSIONGATE_CONFIG", "SESSIONGATE_API_HOST", "SESSIONGATE_DEBUG",
    "SESSIONGATE_PASSWORD", "SESSIONGATE_NEW_PASSWORD"]

/-- The variables that are set. -/
def environment : IO (List (String × String)) :=
  environmentNames.filterMapM fun name => do
    pure ((← IO.getEnv name).map fun value => (name, value))

/-- What a run finds. -/
def surroundings : IO Cli.Surroundings := do
  let now := (← Std.Time.Timestamp.now).toNanosecondsSinceUnixEpoch.val
  let seconds := now / 1000000000
  let nanoseconds := toString (1000000000 + now % 1000000000)
  let stamp := ((Time.text seconds).dropEnd 1).toString ++ "." ++ (nanoseconds.drop 1).toString
    ++ "+00:00"
  let plain := (← IO.getEnv "NO_COLOR").isSome
  pure
    { home := (← IO.getEnv "HOME").filter fun home => !home.isEmpty
      styled := (← (← IO.getStdout).isTty) && !plain
      now := seconds
      stamp := stamp }

/-- The disk as far as a run can see it. -/
def diskOf (s : Cli.Surroundings) (o : Cli.Options) : IO Disk := do
  let current := (Disk.steps (toString (← IO.currentDir)))
  let disk ← observe { entries := [], current := current } "."
  match Cli.configPath s o with
  | .error _ => pure disk
  | .ok path =>
    let disk ← observe disk path
    match Cli.Desk.load s o disk with
    | .error _ => pure disk
    | .ok desk => observe disk desk.tokenPath

/-- The words on how the program is called. -/
def usage : String :=
  "Usage: sessiongate [OPTIONS] <COMMAND>\n\nCommands: " ++ ", ".intercalate Cli.firstWords

/-- Runs a command, and tells whether it went well. -/
def runCommand (s : Cli.Surroundings) (i : Cli.Invocation) : IO UInt32 := do
  let disk ← diskOf s i.options
  let ending ← perform (i.command.run s i.options disk)
  match ending.2, ← (commit disk ending.1).toBaseIO with
  | .ok _, .error e => IO.eprintln ("Error: " ++ toString e)
                       return 1
  | .error e, _ => IO.eprintln ("Error: " ++ e.message)
  | .ok _, .ok _ => IO.print ending.stdout
  pure (UInt32.ofNat ending.exitCode)

end SessionGuard.Main

open SessionGuard in
def main (arguments : List String) : IO UInt32 := do
  match Cli.Invocation.read (← Main.environment) arguments with
  | .error .usage =>
    IO.eprintln Main.usage
    pure 2
  | .error .help =>
    IO.println Main.usage
    pure 0
  | .error .version =>
    IO.println ("sessiongate " ++ Envelope.version)
    pure 0
  | .ok invocation => Main.runCommand (← Main.surroundings) invocation
