import BoxedRuntime.Boundary
import BoxedRuntime.Client
import BoxedRuntime.Main
import BoxedRuntime.Proofs.Boundary.Confinement
import BoxedRuntime.Proofs.Boundary.Installation
import BoxedRuntime.Proofs.Boundary.Mirroring
import BoxedRuntime.Proofs.Boundary.Pointers
import BoxedRuntime.Proofs.Boundary.Refinement
import BoxedRuntime.Proofs.Boundary.Texts
import BoxedRuntime.Proofs.Boundary.Unboxing
import BoxedRuntime.Proofs.Command.Calling
import BoxedRuntime.Proofs.Command.Logging
import BoxedRuntime.Proofs.Fault.Accounting
import BoxedRuntime.Proofs.Fault.Nesting
import BoxedRuntime.Proofs.Literal.Language
import BoxedRuntime.Proofs.Literal.RoundTrip
import BoxedRuntime.Proofs.Registry.FiniteMap
import BoxedRuntime.Proofs.Routine.Arguments
import BoxedRuntime.Proofs.Routine.Checks
import BoxedRuntime.Proofs.Routine.Contract
import BoxedRuntime.Proofs.Routine.Native
import BoxedRuntime.Proofs.Routine.Outcome
import BoxedRuntime.Proofs.Routine.Packing
import BoxedRuntime.Proofs.Routine.Sequences
import BoxedRuntime.Proofs.Signature.Grammar
import BoxedRuntime.Proofs.Startup.Duplicates
import BoxedRuntime.Proofs.Startup.Passes
import BoxedRuntime.Proofs.Startup.Queries
import BoxedRuntime.Proofs.Startup.Registration
import BoxedRuntime.Proofs.Startup.Reordering
import BoxedRuntime.Proofs.Startup.Resolution
import BoxedRuntime.Proofs.Startup.Scripts
import BoxedRuntime.Proofs.Startup.Walk
import BoxedRuntime.Proofs.Text.Decoding
import BoxedRuntime.Proofs.Text.Encoding
import BoxedRuntime.Proofs.Text.Plain
import BoxedRuntime.Proofs.Text.Unescaping
import BoxedRuntime.Proofs.Value.Cloning
import BoxedRuntime.Proofs.Value.Construction
import BoxedRuntime.Proofs.Value.Equivalence
import BoxedRuntime.Proofs.Value.Printing
import BoxedRuntime.Proofs.Value.Records
import BoxedRuntime.Proofs.Value.Separation
import BoxedRuntime.Proofs.Value.Structure
import BoxedRuntime.Value.Equality
