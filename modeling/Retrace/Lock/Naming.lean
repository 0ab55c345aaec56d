import Retrace.Digest.Blake3
import Retrace.Path.Basic

/-!
# Names of lock files

The lock of a source file is named by a digest of the file's path.
-/

namespace Retrace.Lock

/-- Where the lock of `source` is kept in the directory `dir`. -/
def pathFor (dir source : Path) : Path :=
  dir.child (Digest.shortHex (Bytes.ofString source.display) ++ ".lock")

end Retrace.Lock
