import Cbor.Cli.Outcome
import Cbor.Conformance.Suite

/-!
# Fixture sets

The conformance suite as files of records: one for each group, one for all records that decode
and one for all that fail.
-/

namespace Cbor.FixtureSet

/-- The name of a file without its extension, and its records. -/
structure Fixture where
  name : Text
  records : List Record

def successFixtures : List Fixture :=
  Suite.successGroups.map fun group => ⟨group.name, group.cases.map Suite.Success.record⟩

def failureFixtures : List Fixture :=
  Suite.failureGroups.map fun group => ⟨group.name, group.cases.map Suite.Failure.record⟩

def collected (name : String) (fixtures : List Fixture) : Fixture :=
  ⟨name.toList, fixtures.flatMap Fixture.records⟩

def fixtures : List Fixture :=
  successFixtures ++ [collected "TestDecodeSuccess" successFixtures] ++
    failureFixtures ++ [collected "TestDecodeError" failureFixtures]

/-! ## Checking the suite -/

def successCases : List Suite.Success := Suite.successGroups.flatMap Suite.Group.cases

def failureCases : List Suite.Failure := Suite.failureGroups.flatMap Suite.Group.cases

def successEvents (case : Suite.Success) : List Event :=
  case.record.verifyEvents ++
    match case.record.verify with
    | .ok () => []
    | .error mismatch => [.builtInMismatch case.description mismatch.message]

def failureEvents (case : Suite.Failure) : List Event :=
  decodeEvents (decode case.input) ++
    match case.check with
    | .ok () => []
    | .error message => [.builtInMismatch case.description message]

def checkEvents : List Event :=
  successCases.flatMap successEvents ++ failureCases.flatMap failureEvents

def broken : Nat :=
  (successCases.countP fun case => !case.record.verify.isOk) +
    failureCases.countP fun case => !case.check.isOk

/-! ## Writing the files -/

def pathIn (directory name : Text) : Text :=
  if directory.getLast? = some '/' then directory ++ name else directory ++ '/' :: name

def Fixture.content (fixture : Fixture) : Text :=
  (Json.array (fixture.records.map Record.toJson)).pretty

def writeAll (directory : Text) (store : Store) (events : List Event) :
    List Fixture → Store × List Event × Option Text
  | [] => (store, events, none)
  | fixture :: fixtures =>
      let path := pathIn directory (fixture.name ++ ".json".toList)
      match store.write path (Utf8.encode fixture.content) with
      | .error error =>
          (store, events, some (Text.because ("Failed to write ".toList ++ path) error.message))
      | .ok store =>
          writeAll directory store (events ++ [.wrote path fixture.records.length]) fixtures

def run (directory : Text) (store : Store) : Outcome :=
  if 0 < broken then
    .failed store checkEvents
      (Text.ofNat broken ++
        " built-in case(s) do not hold, refusing to write fixtures".toList)
  else
    match store.createDirectories directory with
    | .error error =>
        .failed store checkEvents
          (Text.because ("Failed to create ".toList ++ directory) error.message)
    | .ok store =>
        let (store, events, fault) := writeAll directory store checkEvents fixtures
        match fault with
        | some message => .failed store events message
        | none =>
            { stdout :=
                "Wrote ".toList ++ Text.ofNat fixtures.length ++ " fixture files to ".toList ++
                  directory ++ ['\n']
              store := store
              events := events }

end Cbor.FixtureSet
