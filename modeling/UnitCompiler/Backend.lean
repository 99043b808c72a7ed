import UnitCompiler.Diagnostic
import UnitCompiler.Emission

namespace UnitCompiler

/-- A receiver of items. It may refuse one, and its state goes on from there. -/
class Backend (β : Type) where
  debug : β → Bool
  accept : β → Emission → Except BackendError Unit × β

end UnitCompiler
