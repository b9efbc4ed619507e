import Zbus.Core
import Zbus.Utf8
import Zbus.Variant
import Zbus.VariantCodec
import Zbus.Winnow
import Zbus.NameGrammar
import Zbus.Names
import Zbus.Signature
import Zbus.Basic
import Zbus.SignatureReadBack
import Zbus.Chars
import Zbus.MachineId
import Zbus.Ibus
