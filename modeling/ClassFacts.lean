import ClassFacts.FileTree
import ClassFacts.Main
import ClassFacts.Proofs.CommandLine.Runs
import ClassFacts.Proofs.Documents.Agreement
import ClassFacts.Proofs.Documents.ArrayForms
import ClassFacts.Proofs.Documents.Cuts
import ClassFacts.Proofs.Documents.Defaults
import ClassFacts.Proofs.Documents.Paths
import ClassFacts.Proofs.Documents.Repetitions
import ClassFacts.Proofs.Groups.Listed
import ClassFacts.Proofs.Groups.Overloads
import ClassFacts.Proofs.Hierarchy.Cycles
import ClassFacts.Proofs.Hierarchy.Explanation
import ClassFacts.Proofs.Hierarchy.Monotonicity
import ClassFacts.Proofs.Hierarchy.Nested
import ClassFacts.Proofs.Hierarchy.References
import ClassFacts.Proofs.Hierarchy.Shadowing
import ClassFacts.Proofs.Registry.Replacement
import ClassFacts.Proofs.Text.Spans
import ClassFacts.Proofs.Samples.FirstConstant
import ClassFacts.Proofs.Samples.Literals
import ClassFacts.Proofs.Hierarchy.Inheritance
import ClassFacts.Proofs.Types.Canonical
import ClassFacts.Proofs.Types.Erasure
