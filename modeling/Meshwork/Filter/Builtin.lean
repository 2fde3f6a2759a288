import Meshwork.Filter.Export
import Meshwork.Filter.Import
import Meshwork.Filter.Read
import Meshwork.Filter.Registry
import Meshwork.Filter.Structure

/-!
# The filters that are always available
-/

namespace Meshwork

/-- **The registry of the filters of this library.** They have different names and identifiers, so
none replaces another. -/
def Registry.builtin : Registry :=
  [Filter.importGeometry, Filter.exportStore, Filter.readStore, Filter.createGroup,
    Filter.deleteData].foldl .register .empty

end Meshwork
