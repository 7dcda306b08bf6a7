import Hive.Main
import Hive.Evaluator.Stepper
import Hive.Proofs.TypedArithmetic
import Hive.Proofs.Lexing
import Hive.Proofs.Isolation
import Hive.Proofs.Sessions
import Hive.Proofs.Precedence
import Hive.Proofs.Scans
import Hive.Proofs.Segmentation
import Hive.Proofs.Printing
import Hive.Proofs.Naming
import Hive.Proofs.Carrying
import Hive.Proofs.Joining
import Hive.Proofs.Composition
import Hive.Proofs.Rounding
import Hive.Proofs.Numerals
import Hive.Proofs.Documents
import Hive.Proofs.TokenFiles
import Hive.Proofs.Appending
import Hive.Proofs.Places
import Hive.Proofs.Termination
import Hive.Proofs.Functions
import Hive.Proofs.Nesting
import Hive.Proofs.Persistence
import Hive.Proofs.Alarms
import Hive.Proofs.Renaming
import Hive.Proofs.Mirroring
import Hive.Proofs.Equivariance
import Hive.Proofs.Transcripts
import Hive.Proofs.Returns
import Hive.Proofs.Transparency
import Hive.Proofs.Delimiting
import Hive.Proofs.Splitting
import Hive.Proofs.Handovers
import Hive.Proofs.Declarations
import Hive.Proofs.StaticTypes
import Hive.Proofs.Concatenations
import Hive.Proofs.Relexing
import Hive.Proofs.LexicalErrors
import Hive.Proofs.UnclosedGroups
import Hive.Proofs.Operands
import Hive.Proofs.MalformedFiles
import Hive.Proofs.Insertions
