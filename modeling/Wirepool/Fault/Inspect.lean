import Wirepool.Fault
import Wirepool.Text.Quoted
import Wirepool.Text.Shape

/-!
# Faults in full

For diagnostics a fault is shown with its kind and all it carries.
-/

namespace Wirepool

/-- **A fault in full.** -/
def Fault.inspect : Fault → String
  | .bufferTooShort => "BufferTooShort"
  | .remainingBytes => "RemainingBytes"
  | .invalidSize size => shape "InvalidSize" [("size", Nat.repr size)]
  | .numberOverflow size => shape "NumberOverflow" [("size", Nat.repr size)]
  | .emptyDelimiter => "EmptyDelimiter"
  | .invalidOffset => "InvalidOffset"
  | .endOfData => "EndOfData"
  | .invalidText => "InvalidUtf8"
  | .invalidSetting field reason =>
    shape "InvalidConfig" [("field", quoted field), ("reason", quoted reason)]

end Wirepool
