import Cbor.Cli.Outcome
import Cbor.Conformance.Record

/-!
# Verification

Checks the records of fixture files.  Nothing is printed unless every file is a list of records.
-/

namespace Cbor.Verification

structure Summary where
  passed : Nat := 0
  failed : List Text := []
  deriving DecidableEq, Repr

namespace Summary

def checkRecord (summary : Summary) (record : Record) : Summary :=
  match record.verify with
  | .ok () => { summary with passed := summary.passed + 1 }
  | .error mismatch =>
      { summary with
        failed := summary.failed ++ [Text.because record.description mismatch.message] }

def check (summary : Summary) (records : List Record) : Summary :=
  records.foldl checkRecord summary

def report (summary : Summary) : Text :=
  (summary.failed.flatMap fun failure => "FAIL ".toList ++ failure ++ ['\n']) ++
    Text.ofNat summary.passed ++ " passed, ".toList ++ Text.ofNat summary.failed.length ++
    " failed\n".toList

def failure? (summary : Summary) : Option Text :=
  if summary.failed.length = 0 then none
  else some (Text.ofNat summary.failed.length ++ " fixture record(s) failed".toList)

end Summary

def load (stdin : Bytes) (store : Store) (source : Source) : Except Text (List Record) :=
  match source.readText stdin store with
  | .error error =>
      .error (Text.because ("Failed to read ".toList ++ source.display) error.message)
  | .ok text =>
      match Record.parseList text with
      | .error fault =>
          .error (Text.because ("Failed to parse fixtures in ".toList ++ source.display)
            ("json ".toList ++ fault.category))
      | .ok records => .ok records

def checkEvents (source : Source) (records : List Record) : List Event :=
  .checking source.display records.length :: records.flatMap Record.verifyEvents

/-- Checks one file behind the other, up to the first one that is faulty.  The summary and the
events are those of the files before. -/
def checkFiles (store : Store) (stdin : Bytes) (summary : Summary) (events : List Event) :
    List Source → Outcome
  | [] =>
      { stdout := summary.report, store := store, failure := summary.failure?, events := events }
  | source :: sources =>
      match load stdin store source with
      | .error message => .failed store events message
      | .ok records =>
          checkFiles store (source.leave stdin) (summary.check records)
            (events ++ checkEvents source records) sources

def run (sources : List Source) (stdin : Bytes) (store : Store) : Outcome :=
  checkFiles store stdin {} [] sources

end Cbor.Verification
