import SchemaBound.Engine
import SchemaBound.Instance.Outline
import SchemaBound.Instance.Serialization
import SchemaBound.Program.Run
import SchemaBound.Main
import SchemaBound.Proofs.Schema.Names
import SchemaBound.Proofs.Schema.Stripped
import SchemaBound.Proofs.Schema.Normal
import SchemaBound.Proofs.InPlace.Program
import SchemaBound.Proofs.Program.Reached
import SchemaBound.Proofs.Program.Canonical
import SchemaBound.Proofs.Program.PlainRuns
import SchemaBound.Proofs.Program.Kinds
import SchemaBound.Proofs.Program.Frame
import SchemaBound.Proofs.Blueprint.Handed
import SchemaBound.Proofs.Blueprint.Cycles
import SchemaBound.Proofs.Blueprint.Sharing
import SchemaBound.Proofs.Blueprint.ElementModels
import SchemaBound.Proofs.Blueprint.Pointers
import SchemaBound.Proofs.Program.Nested
import SchemaBound.Proofs.Coercion.Discriminated
import SchemaBound.Proofs.Draft7.Leniency
import SchemaBound.Proofs.Coercion.Independence
import SchemaBound.Proofs.Program.Updates
import SchemaBound.Proofs.Program.ListRuns
import SchemaBound.Proofs.Program.DeepAssignment
import SchemaBound.Proofs.Instance.Splices
import SchemaBound.Proofs.Program.PointerFrame
import SchemaBound.Proofs.Program.PointerReads
import SchemaBound.Proofs.Program.FailurePositions
import SchemaBound.Proofs.Program.Serialization
import SchemaBound.Proofs.Coercion.Integers
