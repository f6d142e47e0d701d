import Cbor.Cli.Stream
import Cbor.Log

/-!
# Outcomes

What a command leaves behind: its standard output, the files, the message it fails with, if it
does, and the events it reports.
-/

namespace Cbor

structure Outcome where
  stdout : Text := []
  store : Store
  failure : Option Text := none
  events : List Event := []

namespace Outcome

def failed (store : Store) (events : List Event) (message : Text) : Outcome where
  store := store
  failure := some message
  events := events

end Outcome

end Cbor
