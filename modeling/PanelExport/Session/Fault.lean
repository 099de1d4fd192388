import PanelExport.Batch.Basic
import PanelExport.Failure
import PanelExport.Files.Tree
import PanelExport.Remote.Reply

/-!
# Faults of a run

A run ends early for a reason that it names, or because a value that it was given, or the file
system, does not let it go on.
-/

namespace PanelExport

/-- Why a run ends early. -/
inductive RunFault where
  | failure (f : Failure)
  | shape (f : ShapeFault)
  | number (f : NumberFault)
  | batch (f : BatchFault)
  | file (f : FileFault)
  | address (f : AddressFault)
  /-- A document is nested too deeply to be read. -/
  | tooDeep

/-- The kind of a fault, as events name it. -/
def ShapeFault.kind : ShapeFault → String
  | .noItems _ | .noLength _ => "TypeError"
  | .noNumber => "KeyError"

/-- The kind of a fault, as events name it. -/
def NumberFault.kind : NumberFault → String
  | .tooLarge | .infinite => "OverflowError"
  | .tooLong _ | .tooLongToWrite | .notANumber => "ValueError"

/-- The kind of a fault, as events name it. -/
def FileFault.kind : FileFault → String
  | .nullByte => "ValueError"
  | .nameTooLong _ => "OSError"
  | .notADirectory _ => "NotADirectoryError"
  | .exists _ => "FileExistsError"
  | .isADirectory _ => "IsADirectoryError"

namespace RunFault

/-- The kind of a fault, as events name it. -/
def kind : RunFault → String
  | .failure f => f.kind.name
  | .shape f => f.kind
  | .number f => f.kind
  | .batch _ => "ValueError"
  | .file f => f.kind
  | .address _ => "InvalidURL"
  | .tooDeep => "RecursionError"

/-- The wording of a fault. -/
def message : RunFault → String
  | .failure f => f.message
  | .shape f => f.message
  | .number f => f.message
  | .batch f => f.message
  | .file f => f.message
  | .address f => f.message
  | .tooDeep => ReadFault.message [] .tooDeep

/-- The fault of a call, with a failure made of what the call says. -/
def ofCall (toFailure : RemoteFault → Failure) : CallFault → RunFault
  | .failed f => .failure (toFailure f)
  | .address f => .address f
  | .tooDeep => .tooDeep

end RunFault

end PanelExport
