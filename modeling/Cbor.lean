import Cbor.Main
import Cbor.Wire.Options
import Cbor.Proofs.Extension
import Cbor.Proofs.Sequences
import Cbor.Proofs.Completion
import Cbor.Proofs.Guarded
import Cbor.Proofs.Progress
import Cbor.Proofs.Fixtures
import Cbor.Proofs.Tiling
import Cbor.Proofs.Verification
import Cbor.Proofs.Size
import Cbor.Proofs.HexReport
import Cbor.Proofs.MapBodies
import Cbor.Proofs.Readability
import Cbor.Proofs.ErrorMessages
import Cbor.Proofs.DiagnosticLines
import Cbor.Proofs.VerifiedFiles
import Cbor.Proofs.SpacedHex
import Cbor.Proofs.LossyViews
import Cbor.Proofs.CheckedForms
import Cbor.Proofs.Delivery
import Cbor.Proofs.Positions
