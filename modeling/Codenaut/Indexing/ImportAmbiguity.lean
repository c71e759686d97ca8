import Codenaut.Indexing.NameLookup
import Codenaut.Indexing.RelativeImports

/-!
# Ambiguous imports

Several imports of a file may bind one name, and a wildcard binds what its module
defines. The resolver takes the first name that any symbol bears, so one that
leads elsewhere is seen only when the first is itself borne by several symbols.
-/

set_option autoImplicit false

namespace Codenaut.Indexing

open Codenaut.Db Codenaut.Relational Codenaut.Text

/-! ## What imports bind -/

section Soundness

variable (symbols : List SymbolRecord) (caller : SymbolRecord) (parsed : ParsedFile)

end Soundness

section Proofs

variable {platform : Platform} {unicode : UnicodeTables} {scope : GraphScope}
  {parsedFiles : List ParsedFile} {symbols : List SymbolRecord} {caller : SymbolRecord}
  {parsed : ParsedFile}

end Proofs

/-! ## Two imports of one name -/

namespace ImportSamples

open ReceiverSamples

end ImportSamples

end Codenaut.Indexing
