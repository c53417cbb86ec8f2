import Nominal.Main
import Nominal.Proofs.Lossless
import Nominal.Proofs.Conformity.Declarations
import Nominal.Proofs.Detected
import Nominal.Proofs.Freshness
import Nominal.Proofs.Foreseen
import Nominal.Proofs.Carried.Declarations
import Nominal.Proofs.Written.Parsed
import Nominal.Proofs.Precedence.Operators
import Nominal.Proofs.Remaining
import Nominal.Proofs.Derived.Complete
import Nominal.Proofs.Layout.Sites
import Nominal.CommandLine.Files
import Nominal.Proofs.Reparsed.Altered
import Nominal.Proofs.Reparsed.Edited
import Nominal.Proofs.Typed.Told
import Nominal.Proofs.Reparsed.Sound
import Nominal.Proofs.Typed.Spelt
import Nominal.Proofs.Derived.Names
import Nominal.Proofs.Reparsed.Planned
import Nominal.Proofs.Reparsed.Extractions
import Nominal.Proofs.Recognised
import Nominal.Proofs.Interned
import Nominal.Proofs.Positioned
import Nominal.Proofs.Allocated
import Nominal.Proofs.Typed.Filed
import Nominal.Proofs.Tallied
import Nominal.Proofs.Structural
import Nominal.Proofs.Shown
import Nominal.Proofs.Tiled
import Nominal.Proofs.Capitalised
import Nominal.Proofs.Typed.Framed
import Nominal.Proofs.Contexts
import Nominal.Proofs.Tight.Spans
import Nominal.Proofs.Keys.Records
import Nominal.Proofs.Recased
import Nominal.Proofs.Pointed
import Nominal.Proofs.Nested.Productions
import Nominal.Proofs.Rounds.Bounded
import Nominal.Proofs.Understood
import Nominal.Proofs.Accessed
import Nominal.Proofs.Referred
