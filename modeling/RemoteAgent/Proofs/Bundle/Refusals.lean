import RemoteAgent.Proofs.Bundle.Selection

/-! # Extractions that the system refuses

Wherever the making of the temporary file breaks off, the file goes with it. So an extraction
either leaves one new file or leaves the temporary directory as it was.
-/

namespace RemoteAgent.Bundle

variable {contents : Tar.Contents} {os arch file : String} {d : TemporaryDirectory}

/-- What an extraction may come to: nothing is left of a failure, and of a success one file, which
can be removed again. -/
inductive Leaves (file : String) (d : TemporaryDirectory) :
    Except BundleError Unit × TemporaryDirectory → Prop where

  | nothing (cause : BundleError) : Leaves file d (.error cause, d)

  | one (created : TemporaryFile) (hname : created.name = file)
      (hremove : TemporaryDirectory.remove (d ++ [created]) file = d) :
      Leaves file d (.ok (), d ++ [created])

theorem Leaves.of_created (hd : d.find? file = none) (created : TemporaryFile)
    (hname : created.name = file) : Leaves file d (.ok (), d ++ [created]) :=
  .one created hname (TemporaryDirectory.remove_append hd hname)

theorem leaves_extractEntries (hd : d.find? file = none) (refusals : Refusals) :
    Leaves file d (extractEntries contents os arch file d refusals) := by
  unfold extractEntries
  simp only [remove_write_create hd, setMode_write_create hd]
  split
  · split
    · exact .nothing _
    · exact .nothing _
  split
  · exact .nothing _
  split
  · exact .nothing _
  split
  · exact .nothing _
  split
  · exact .nothing _
  split
  · rw [write_create hd]
    exact .of_created hd _ rfl
  split
  · exact .nothing _
  · exact .of_created hd _ rfl

theorem leaves_extract (bundle : Except IoError ByteArray) (os arch : String)
    (hd : d.find? file = none) (refusals : Refusals) :
    Leaves file d (extract bundle os arch file d refusals) := by
  cases bundle with
  | error cause => exact .nothing _
  | ok bytes => exact leaves_extractEntries hd refusals

end RemoteAgent.Bundle
