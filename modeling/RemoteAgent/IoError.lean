/-!
# Failures of input and output

A failure comes from the operating system, with its number, or from the program itself, with a
text. Both have a kind.
-/

namespace RemoteAgent

inductive IoErrorKind where
  | notFound | permissionDenied | connectionRefused | connectionReset | hostUnreachable
  | networkUnreachable | connectionAborted | notConnected | addressInUse | addressNotAvailable
  | networkDown | brokenPipe | alreadyExists | wouldBlock | notADirectory | isADirectory
  | directoryNotEmpty | readOnlyFilesystem | filesystemLoop | staleHandle | invalidInput
  | invalidData | timedOut | writeZero | storageFull | notSeekable | quotaExceeded | fileTooLarge
  | resourceBusy | executableBusy | deadlock | crossesDevices | tooManyLinks | invalidFilename
  | argumentListTooLong | interrupted | unsupported | unexpectedEnd | outOfMemory | other
  deriving DecidableEq, Repr

namespace IoErrorKind

/-- The kinds with the names under which they are reported. -/
def named : List (IoErrorKind × String) := [
  (notFound, "NotFound"), (permissionDenied, "PermissionDenied"),
  (connectionRefused, "ConnectionRefused"), (connectionReset, "ConnectionReset"),
  (hostUnreachable, "HostUnreachable"), (networkUnreachable, "NetworkUnreachable"),
  (connectionAborted, "ConnectionAborted"), (notConnected, "NotConnected"),
  (addressInUse, "AddrInUse"), (addressNotAvailable, "AddrNotAvailable"),
  (networkDown, "NetworkDown"), (brokenPipe, "BrokenPipe"), (alreadyExists, "AlreadyExists"),
  (wouldBlock, "WouldBlock"), (notADirectory, "NotADirectory"), (isADirectory, "IsADirectory"),
  (directoryNotEmpty, "DirectoryNotEmpty"), (readOnlyFilesystem, "ReadOnlyFilesystem"),
  (filesystemLoop, "FilesystemLoop"), (staleHandle, "StaleNetworkFileHandle"),
  (invalidInput, "InvalidInput"), (invalidData, "InvalidData"), (timedOut, "TimedOut"),
  (writeZero, "WriteZero"), (storageFull, "StorageFull"), (notSeekable, "NotSeekable"),
  (quotaExceeded, "QuotaExceeded"), (fileTooLarge, "FileTooLarge"),
  (resourceBusy, "ResourceBusy"), (executableBusy, "ExecutableFileBusy"), (deadlock, "Deadlock"),
  (crossesDevices, "CrossesDevices"), (tooManyLinks, "TooManyLinks"),
  (invalidFilename, "InvalidFilename"), (argumentListTooLong, "ArgumentListTooLong"),
  (interrupted, "Interrupted"), (unsupported, "Unsupported"), (unexpectedEnd, "UnexpectedEof"),
  (outOfMemory, "OutOfMemory"), (other, "Other")]

def name (k : IoErrorKind) : String :=
  ((named.find? (·.1 = k)).map (·.2)).getD "Other"

/-- The kind of a name; unknown names stand for no kind in particular. -/
def ofName (name : String) : IoErrorKind :=
  ((named.find? (·.2 = name)).map (·.1)).getD other

end IoErrorKind

/-- The failures that the operating system reports here. -/
inductive SystemError where
  | notPermitted | noEntry | accessDenied | busy | alreadyExists | crossDevice | notADirectory
  | isADirectory | invalidArgument | brokenPipe | nameTooLong | notEmpty | linkLoop
  deriving DecidableEq, Repr

namespace SystemError

def all : List SystemError :=
  [notPermitted, noEntry, accessDenied, busy, alreadyExists, crossDevice, notADirectory,
   isADirectory, invalidArgument, brokenPipe, nameTooLong, notEmpty, linkLoop]

def number : SystemError → Nat
  | notPermitted => 1
  | noEntry => 2
  | accessDenied => 13
  | busy => 16
  | alreadyExists => 17
  | crossDevice => 18
  | notADirectory => 20
  | isADirectory => 21
  | invalidArgument => 22
  | brokenPipe => 32
  | nameTooLong => 36
  | notEmpty => 39
  | linkLoop => 40

def ofNumber? (n : Nat) : Option SystemError :=
  all.find? (·.number = n)

/-- The system's own words. -/
def description : SystemError → String
  | notPermitted => "Operation not permitted"
  | noEntry => "No such file or directory"
  | accessDenied => "Permission denied"
  | busy => "Device or resource busy"
  | alreadyExists => "File exists"
  | crossDevice => "Invalid cross-device link"
  | notADirectory => "Not a directory"
  | isADirectory => "Is a directory"
  | invalidArgument => "Invalid argument"
  | brokenPipe => "Broken pipe"
  | nameTooLong => "File name too long"
  | notEmpty => "Directory not empty"
  | linkLoop => "Too many levels of symbolic links"

def kind : SystemError → IoErrorKind
  | notPermitted | accessDenied => .permissionDenied
  | noEntry => .notFound
  | busy => .resourceBusy
  | alreadyExists => .alreadyExists
  | crossDevice => .crossesDevices
  | notADirectory => .notADirectory
  | isADirectory => .isADirectory
  | invalidArgument => .invalidInput
  | brokenPipe => .brokenPipe
  | nameTooLong => .invalidFilename
  | notEmpty => .directoryNotEmpty
  | linkLoop => .filesystemLoop

end SystemError

inductive IoError where
  | system (cause : SystemError)
  | custom (kind : IoErrorKind) (text : String)
  deriving DecidableEq, Repr

namespace IoError

def kind : IoError → IoErrorKind
  | system cause => cause.kind
  | custom kind _ => kind

def message : IoError → String
  | system cause => s!"{cause.description} (os error {cause.number})"
  | custom _ text => text

/-- A writer that takes no byte at all cannot be written to. -/
def writeZero : IoError :=
  .custom .writeZero "write zero"

/-- A text handed to the system must not hold a NUL character. -/
def nulCharacter : IoError :=
  .custom .invalidInput "nul byte found in provided data"

/-- Nor must a path. -/
def nulInPath : IoError :=
  .custom .invalidInput "file name contained an unexpected NUL byte"

end IoError

end RemoteAgent
