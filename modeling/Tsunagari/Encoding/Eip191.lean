import Tsunagari.Js.Number

/-!
# Signed messages of wallets

What a wallet hashes and signs for a message: a fixed text, the number of bytes of the message in
decimal, and the message.
-/

namespace Eip191

def preimage (message : List UInt8) : List UInt8 :=
  Js.toUtf8Bytes "\x19Ethereum Signed Message:\n" ++
    (Js.toUtf8Bytes (toString message.length) ++ message)

end Eip191
