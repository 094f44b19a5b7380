import StorageBus.Fnv1a
import StorageBus.Text.Hex

/-!
# Socket paths

Where a service listens. A socket address holds a path of at most 107 bytes, so a service name that
would lead to a longer one is shortened: what stays is a prefix of the name, then a hash of the
whole path, which keeps distinct names distinct.

## Main definitions

* `SocketPath.ofService` — the path for a service in a directory.
* `SocketPath.default` — the path from the environment, or that of the default service.
-/
namespace StorageBus.SocketPath

/-- The usable bytes of a socket address. -/
def maxLength : Nat := 107

def environmentVariable : String := "STORAGE_LISTENER_SOCKET"

def defaultService : String := "storage_events"

/-- What every socket name ends in. -/
def ending : String := ".sock"

/-- The path of `name` in `dir`. An absolute name replaces the directory; else one slash stands
between the two unless the directory is empty or ends in one. -/
def join (dir name : String) : String :=
  if name.startsWith "/" then name
  else if dir = "" || dir.endsWith "/" then dir ++ name
  else dir ++ "/" ++ name

def utf8 (s : String) : Bytes := s.toUTF8.data.toList

/-- The hash of a path in sixteen digits. -/
def fingerprint (path : String) : String :=
  String.ofList (Text.Hex.fixed .lower 16 (Fnv1a.hash (utf8 path)).toNat)

/-- How many characters of the name a shortened path has room for: directory, slash, underscore,
fingerprint and ending come first. -/
def room (dir : String) : Nat := maxLength - (dir.utf8ByteSize + 1 + 1 + 16 + ending.utf8ByteSize)

/-- The characters of a name up to the first outside ASCII, `n` at most. -/
def asciiStart (n : Nat) (name : String) : String :=
  String.ofList ((name.toList.takeWhile fun c => c.toNat < 128).take n)

/-- The path that the service would have if length did not matter. -/
def full (dir name : String) : String := join dir (name ++ ending)

def ofService (dir name : String) : String :=
  let path := full dir name
  if path.utf8ByteSize ≤ maxLength then path
  else join dir (asciiStart (room dir) name ++ "_" ++ fingerprint path ++ ending)

/-- The path that the environment gives if it gives one that is not empty, else that of the default
service in the directory for temporary files. -/
def default (override tempDir : Option String) : String :=
  match override with
  | some path => if path = "" then fallback else path
  | none => fallback
where
  fallback : String := ofService (tempDir.getD "/tmp") defaultService

end StorageBus.SocketPath
