import RemoteAgent.IoError

/-!
# Failures of bundles
-/

namespace RemoteAgent

/-- What can be wrong with the bytes of a bundle. -/
inductive ArchiveError where
  /-- The compressed data is damaged or cut short. -/
  | compression
  /-- The archive in it is damaged or cut short. -/
  | archive
  deriving DecidableEq, Repr

def ArchiveError.message : ArchiveError → String
  | compression => "damaged compressed data"
  | archive => "damaged archive"

inductive BundleError where
  | unsupportedPlatform (os arch : String)
  /-- The entry ended early or went on for too long. -/
  | truncated (expected read : Nat)
  | io (cause : IoError)
  | damaged (cause : ArchiveError)
  deriving DecidableEq, Repr

def BundleError.message : BundleError → String
  | unsupportedPlatform os arch => s!"No agent for {os}/{arch} in bundle"
  | truncated expected read => s!"Bundle entry truncated: expected {expected} bytes, read {read}"
  | io cause => "I/O error: " ++ cause.message
  | damaged cause => "I/O error: " ++ cause.message

end RemoteAgent
