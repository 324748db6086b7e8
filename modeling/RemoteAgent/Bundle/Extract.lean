import RemoteAgent.Bundle.Error
import RemoteAgent.Bundle.TemporaryDirectory
import RemoteAgent.Path
import RemoteAgent.Tar.Archive

/-!
# Extracting an agent from a bundle

A bundle is a compressed archive with one executable for each platform. The first entry that bears
the name of a platform is the one that counts; what follows it is not looked at. Permissions in the
archive are not used.
-/

namespace RemoteAgent.Bundle

/-- Whether an entry bears a name, a `.` at its front aside. -/
def bears (entry : Tar.Entry) (name : String) : Bool :=
  match Text.decode? entry.name with
  | none => false
  | some s =>
    let components := (Path.mk s).components
    let components := if components.head? = some .here then components.tail else components
    components = (Path.mk name).components

/-- The name of a platform's entry. -/
def entryName (os arch : String) : String :=
  os ++ "_" ++ arch

/-- The permissions of an extracted executable: its owner may do everything with it. -/
def executableMode : Nat := 0o700

/-- Extracts the agent for a platform from the entries of a bundle into a new temporary file. If
that fails, the file is removed again. -/
def extractEntries (contents : Tar.Contents) (os arch : String) (file : String)
    (d : TemporaryDirectory) (refusals : Refusals := {}) :
    Except BundleError Unit × TemporaryDirectory :=
  match contents.entries.find? (bears · (entryName os arch)) with
  | none =>
    if contents.sound then (.error (.unsupportedPlatform os arch), d)
    else (.error (.damaged .archive), d)
  | some entry =>
    match refusals.create with
    | some cause => (.error (.io cause), d)
    | none =>
      let d := (d.create file).write file (refusals.written entry.data)
      match refusals.writing? entry.data with
      | some cause => (.error (.io cause), d.remove file)
      | none =>
        if !entry.readable then (.error (.damaged .compression), d.remove file)
        else if entry.data.length ≠ entry.size then
          (.error (.truncated entry.size entry.data.length), d.remove file)
        else if os = "windows" then (.ok (), d)
        else
          match refusals.setMode with
          | some cause => (.error (.io cause), d.remove file)
          | none => (.ok (), d.setMode file executableMode)

/-- Extracts the agent for a platform from what reading the bundle gives. -/
def extract (bundle : Except IoError ByteArray) (os arch : String) (file : String)
    (d : TemporaryDirectory) (refusals : Refusals := {}) :
    Except BundleError Unit × TemporaryDirectory :=
  match bundle with
  | .error cause => (.error (.io cause), d)
  | .ok bytes => extractEntries (Tar.contents (Gzip.decompress bytes)) os arch file d refusals

end RemoteAgent.Bundle
