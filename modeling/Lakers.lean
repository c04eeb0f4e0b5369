import Lakers.Basic
import Lakers.MessageBuffer
import Lakers.MessageBuffer.FromHex
import Lakers.MessageBuffer.Refinement
import Lakers.Cbor.Decoder
import Lakers.Cbor.Rfc8949
import Lakers.Cbor.Reads
import Lakers.Cbor.Position
import Lakers.Parser
import Lakers.Parser.Safety
import Lakers.Parser.RoundTrip
import Lakers.Parser.Guards
import Lakers.Parser.Message2
import Lakers.Parser.Soundness
import Lakers.Parser.Position
import Lakers.Parser.Language
import Lakers.Info
import Lakers.ConnectionId
import Lakers.Credential
