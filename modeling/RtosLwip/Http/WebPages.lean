import RtosLwip.Base.Print
import RtosLwip.Base.Numerals
import RtosLwip.Cmd.MediaFrame
import RtosLwip.Http.Post

/-!
# Generated Web Pages

The pages of the web server that are put together from the configuration,
`httpWebPages.c`: the root page, the information, media and reboot pages, and
the page with the result of an upload. Each is printed into the buffer
`mhc->data` of the connection behind a header that is the same for all of them,
and then the length of the page is printed over the three digits that the header
has in its place.

That last print writes a NUL behind the digits. Its length is added to the index
of the header as if it had been printed behind it, so the length of the response
counts the digits once more: every response ends with bytes that are not of the
page, and its header is not one of text lines.

The connection keeps its buffer as the beginning of memory, so that prints
behind the end of it could be told. The pages do fit, which is proved here.

## Main definitions

* `PageConn`: What of a connection the pages use.
* `WebPage`: The pages, with their texts and their handlers.
* `extHttpWebPagePrintHeader`: The header.
* `respond`: What the handlers share.
* `IsResponse`: A header of lines, the length of the page in it, and the page.
* `PageServed`: What a handler has left in the buffer is the response of its page.

## Theorems

* `contentLength_respond`: The length that a handler leaves.
* `not_served`: No handler leaves the response of its page.
-/

namespace RtosLwip

namespace Http

open Cmd Print

/-- `MuxHttpConn`, as far as a page uses it: `mhc->data` is the beginning of
    `data`. -/
structure PageConn where
  data : Nat → UInt8
  dataSendIndex : UInt16
  contentLength : UInt16
  httpStatusCode : Nat

/-- `WEB_RES_REQUEST_OK` -/
def webResRequestOk : Nat := 200

/-- What the FPGA says of its version. -/
structure FpgaVersion where
  version : UInt8
  revision : UInt8
  month : UInt8
  day : UInt8
  year : UInt8
  hour : UInt8
  minute : UInt8

/-- The firmware of the board, or the program that simulates it. `BUILD_DATE_TIME`
    is the time of the compilation, as in `Jan 31 2020 12:34:56`. -/
structure Build where
  buildDateTime : List UInt8
  length_buildDateTime : buildDateTime.length = 20
  fpga : Option FpgaVersion

/-- `extFgpaReadVersion` -/
def extFgpaReadVersion (v : FpgaVersion) : List UInt8 :=
  ascii " " ++ (if v.version &&& 0x80 = 0 then ascii "RX" else ascii "TX") ++ ascii ", Ver:" ++
    hex2 (v.version &&& 0x7F) ++ ascii "." ++ hex2 v.revision ++ ascii ", (Build " ++
    hex2 v.month ++ ascii " " ++ hex2 v.day ++ ascii " " ++ hex2 v.year ++ ascii " " ++
    hex2 v.hour ++ ascii ":" ++ hex2 v.minute ++ ascii ")"

/-- `EXT_OS_NAME` -/
def extOsName (b : Build) : List UInt8 :=
  ascii "\r\nMuxLab 500767 SDI over IP (Version: 0.1.1; Built: " ++ b.buildDateTime ++
    ascii ")\r\n"

/-- `STR_BOOL_VALUE` -/
def strBoolValue (b : UInt8) : List UInt8 := if b = 0 then ascii "NO" else ascii "YES"

/-- `EXT_IS_TX(runCfg)?"TX":"RX"` -/
def txOrRx (cfg : Cmd.RuntimeCfg) : List UInt8 :=
  if cfg.isTransmitter then ascii "TX" else ascii "RX"

/-- The prints of `__extHttpWebPagePrintHeader`. -/
def extHttpWebPagePrintHeader : List (List UInt8) :=
  [ascii "HTTP/1.0 200 OK\r\n", ascii "Server: MuxLab/500767\r\n",
    ascii "Content-type: text/html\r\n", ascii "Content-Length: 955 \r\n\r\n"]

/-- The heading of a group of fields. -/
def title (text : List UInt8) : List UInt8 :=
  ascii "<DIV class=\"title\"><H2>" ++ text ++ ascii "</H2></DIV>"

/-- The begin of a group of fields. -/
def fieldsInfo : List UInt8 := ascii "<DIV class=\"fields-info\">"

/-- The begin of a field, up to its value. -/
def label (text : List UInt8) : List UInt8 :=
  ascii "<DIV class=\"field\"><LABEL >" ++ text ++ ascii ":</LABEL><DIV class=\"label\">"

/-- The begin of a field, as some of the prints have it. -/
def label' (text : List UInt8) : List UInt8 :=
  ascii "<DIV class=\"field\"><LABEL >" ++ text ++ ascii ":</LABEL><DIV class=\"label\" >"

/-- The end of a field. -/
def divDiv : List UInt8 := ascii "</DIV></DIV>"

/-- The prints of `__extHttpWebPageReboot`. -/
def rebootTexts : List (List UInt8) :=
  [title (ascii "Reboot"),
    fieldsInfo ++ ascii "<DIV class=\"field\"><DIV>Waiting.....</DIV></DIV></DIV>"]

/-- The prints of `__extHttpWebPageMedia`. -/
def mediaTexts (cfg : Cmd.RuntimeCfg) : List (List UInt8) :=
  [title (ascii "Video/Audio") ++ fieldsInfo ++ label (ascii "Multicast") ++
      strBoolValue cfg.isMCast ++ divDiv,
    label' (ascii "Media IP Address") ++ ip4addrNtoa cfg.dest.ip ++ divDiv,
    label (ascii "Video Port") ++ dec cfg.dest.vport.toNat ++ divDiv,
    label (ascii "Audio Port") ++ dec cfg.dest.aport.toNat ++ divDiv,
    label (ascii "Data Port") ++ dec cfg.dest.dport.toNat ++ divDiv,
    label (ascii "Stream Port") ++ dec cfg.dest.sport.toNat ++ divDiv,
    label (ascii "Resolution") ++ dec cfg.runtime.vWidth.toNat ++ ascii " x " ++
      dec cfg.runtime.vHeight.toNat ++ divDiv,
    label' (ascii "Frame Rate") ++ dec cfg.runtime.vFrameRate.toNat ++ divDiv,
    label' (ascii "Color Depth") ++ dec cfg.runtime.vDepth.toNat ++ divDiv,
    label' (ascii "Color Space") ++
      extCmnStringFind .vColorSpace cfg.runtime.vColorSpace.toUInt16 ++ divDiv,
    label' (ascii "Audio Frequency") ++ dec cfg.runtime.aSampleRate.toNat ++ divDiv,
    label' (ascii "Audio Bitrate") ++ dec cfg.runtime.aDepth.toNat ++ divDiv,
    label' (ascii "Audio Channels") ++ dec cfg.runtime.aChannels.toNat ++ divDiv,
    divDiv]

/-- The versions that `__extHttpWebPageInfo` prints: the firmware and the FPGA on
    the board, what is configured in the simulation. -/
def versionTexts (b : Build) (cfg : Cmd.RuntimeCfg) : List (List UInt8) :=
  match b.fpga with
  | some v =>
      [label (ascii "Firmware Version") ++ ascii "0.1.1(Build " ++ b.buildDateTime ++ ascii ")" ++
          divDiv,
        label (ascii "FPGA Version") ++ extFgpaReadVersion v ++ divDiv]
  | none =>
      [label (ascii "Firmware Version") ++ dec2 cfg.version.major ++ ascii "." ++
        dec2 cfg.version.minor ++ ascii "." ++ dec2 cfg.version.revision ++ divDiv]

/-- The prints of `__extHttpWebPageInfo`. -/
def infoTexts (b : Build) (cfg : Cmd.RuntimeCfg) : List (List UInt8) :=
  [title (ascii "Device") ++ fieldsInfo ++ label (ascii "Product Name") ++
      ascii "SdiOverIP-767" ++ divDiv,
    label (ascii "Model") ++ ascii "500767-" ++ txOrRx cfg ++ divDiv ++ crlf,
    label' (ascii "Custom Name") ++ cfg.name.val ++ divDiv] ++
  versionTexts b cfg ++
  [ascii "</DIV>",
    title (ascii "Settings") ++ fieldsInfo ++ label' (ascii "MAC Address"),
    quoted (macPrint cfg.local.mac) ++ ascii ",",
    divDiv,
    label' (ascii "IP Address") ++ ip4addrNtoa cfg.local.ip ++ divDiv,
    ascii " " ++ label' (ascii "Subnet Mask") ++ ip4addrNtoa cfg.ipMask ++ divDiv,
    ascii " " ++ label' (ascii "Gateway") ++ ip4addrNtoa cfg.ipGateway ++ divDiv,
    ascii " " ++ label' (ascii "DHCP") ++ strBoolValue cfg.netMode ++ divDiv,
    ascii " " ++ label' (ascii "Dipswitch") ++ strBoolValue cfg.isDipOn ++ divDiv ++
      ascii "</DIV>",
    title (ascii "RS232") ++ fieldsInfo ++ label (ascii "Baudrate") ++
      decInt cfg.rs232Cfg.baudRate.toInt32.toInt ++ divDiv,
    label (ascii "Databits") ++ dec cfg.rs232Cfg.charLength.toNat ++ divDiv,
    label (ascii "Parity") ++ extCmnStringFind .rsParity cfg.rs232Cfg.parityType.toUInt16 ++
      divDiv,
    label (ascii "Stopbits") ++ dec cfg.rs232Cfg.stopbits.toNat ++ divDiv,
    divDiv]

/-- An entry of the navigation of the root page, `href="JavaScript:load_http_doc('…'`. -/
def navigation (id uri name : List UInt8) : List UInt8 :=
  ascii "<a id=\"" ++ id ++ ascii "\" class=\"\" href=\"JavaScript:load_http_doc('" ++ uri ++
    ascii "', 'content','')\">" ++ name ++ ascii "</a>"

/-- The prints of `__extHttpWebPageRoot` up to its script. -/
def rootBodyTexts (b : Build) (cfg : Cmd.RuntimeCfg) : List (List UInt8) :=
  [ascii "<HTML><HEAD><TITLE>Muxlab " ++ txOrRx cfg ++ ascii "-500767</TITLE>",
    ascii "<LINK href=\"/styles.css\" type=\"text/css\" " ++ ascii "rel=\"stylesheet\">" ++
      ascii "<SCRIPT type=\"text/javascript\" " ++ ascii "src=\"/load_html.js\"></SCRIPT></HEAD>" ++
      crlf,
    ascii "<BODY onload=\"JavaScript:load_http_doc('" ++ ascii "/info" ++
      ascii "', 'content','')\"><DIV id=\"body\">" ++ ascii "<DIV id=\"header\">" ++
      ascii "<a id=\"logo\" href=\"/\">" ++ ascii "<img alt=\"Muxlab Control Panel\" " ++
      ascii "src=\"/logo.jpg\"></a><br />",
    ascii "<div data-text=\"dt_productName\" " ++ ascii "id=\"id_mainProductName\">500767-" ++
      txOrRx cfg ++ ascii "-UTP 3G-SDI/ST2110 over IP " ++ ascii "Uncompressed Extender " ++
      txOrRx cfg ++ ascii ", UTP</div></DIV>",
    ascii "<DIV id=\"nav\">" ++ ascii "<a data-text=\"Info\" id=\"nav_info\" class=\"\" " ++
      ascii "href=\"JavaScript:load_http_doc('" ++ ascii "/info" ++
      ascii "', 'content','')\">Info</a>",
    navigation (ascii "nav_media") (ascii "/media") (ascii "Media"),
    navigation (ascii "nav_upgrade_mcu") (ascii "/upgradeMcu.html") (ascii "Upgrade MCU"),
    navigation (ascii "nav_upgrade_fpga") (ascii "/upgradeFpga.html") (ascii "Upgrade FPGA"),
    ascii "<a id=\"nav_upgrade_fpga\" class=\"\" " ++
      ascii "href=\"JavaScript:reboot_device()\">Reboot</a>" ++ ascii "</DIV>",
    ascii "<DIV id=\"message\"></DIV>" ++ ascii "<DIV id=\"content\"></DIV>" ++
      ascii "<DIV id=\"footer\">" ++ ascii "&copy; MuxLab Inc. " ++ extOsName b ++
      ascii "</DIV></DIV>"]

/-- The prints of `__extHttpWebPageRoot` from its script on. -/
def rootScriptTexts : List (List UInt8) :=
  [ascii "<SCRIPT type=\"text/javascript\">" ++ ascii "function submit_firmware(chip)\t\x7b " ++
      ascii "var form = document.getElementById" ++ ascii "('formFirmware'); ",
    ascii "var formData = new FormData(form);" ++ ascii "xhr = new XMLHttpRequest();" ++
      ascii "xhr.open('POST', chip);xhr.send(formData);",
    ascii "document.getElementById('content').innerHTML" ++
      ascii " = '<img src=\"/loading.gif\" />';",
    ascii "xhr.onload = function()" ++ ascii "\x7bif (xhr.status !== 200) " ++
      ascii "\x7balert('Request failed.  " ++ ascii "Returned status of ' + xhr.status);\x7d " ++
      ascii "else\x7bdocument.getElementById('content')" ++
      ascii ".innerHTML=xhr.responseText;\x7d\x7d;\x7d",
    ascii " function reboot_device()" ++ ascii "\x7bvar response = confirm" ++
      ascii "(\"Do you want to reboot?\"); " ++ ascii "if (response)\x7b load_http_doc('" ++
      ascii "/reboot" ++ ascii "', 'content',''); " ++
      ascii "setTimeout(function()\x7bwindow.location" ++ ascii ".reload(1);\x7d, 3000); \x7d \x7d",
    ascii "</SCRIPT></BODY></HTML>"]

/-- The prints of `__extHttpWebPageRoot`. -/
def rootTexts (b : Build) (cfg : Cmd.RuntimeCfg) : List (List UInt8) :=
  rootBodyTexts b cfg ++ rootScriptTexts

/-- The print of `extHttpWebPageResult`. -/
def resultTexts (heading msg : List UInt8) : List (List UInt8) :=
  [title heading ++ fieldsInfo ++ ascii "<DIV class=\"field\"><LABEL >Result:" ++ msg ++
    ascii "</LABEL></DIV></DIV>"]

/-- What the handlers share: the header, the page behind it, and the length of the
    page over the digits of the header. The length of that print is added to the
    index, and the sum is cut to 16 bits. -/
def respond (texts : List (List UInt8)) (mhc : PageConn) : PageConn :=
  let header := prints 0 maxReqLength 0 extHttpWebPagePrintHeader mhc.data
  let headerLength := header.2
  let page := prints headerLength (maxReqLength - headerLength) 0 texts header.1
  let contentLength := page.2
  let index := headerLength + (dec contentLength).length
  { data := snprintf page.1 (headerLength - 8) 5 (dec contentLength)
    dataSendIndex := 0
    contentLength := (index + contentLength).toUInt16
    httpStatusCode := webResRequestOk }

/-- `extHttpWebPageRootHander` -/
def extHttpWebPageRootHander (b : Build) (cfg : Cmd.RuntimeCfg) (mhc : PageConn) : PageConn :=
  respond (rootTexts b cfg) mhc

/-- `_extHttpWebPageInfoHander` -/
def extHttpWebPageInfoHander (b : Build) (cfg : Cmd.RuntimeCfg) (mhc : PageConn) : PageConn :=
  respond (infoTexts b cfg) mhc

/-- `_extHttpWebPageMediaHander` -/
def extHttpWebPageMediaHander (cfg : Cmd.RuntimeCfg) (mhc : PageConn) : PageConn :=
  respond (mediaTexts cfg) mhc

/-- `_extHttpWebPageReboot`, without the reboot that the board then does. -/
def extHttpWebPageReboot (mhc : PageConn) : PageConn := respond rebootTexts mhc

/-- `extHttpWebPageResult` -/
def extHttpWebPageResult (heading msg : List UInt8) (mhc : PageConn) : PageConn :=
  respond (resultTexts heading msg)
    { mhc with data := store mhc.data 0 (List.replicate maxReqLength 0) }

/-- The generated pages. -/
inductive WebPage where
  | root
  | info
  | media
  | reboot
  | result (heading msg : List UInt8)

namespace WebPage

variable (b : Build) (cfg : Cmd.RuntimeCfg)

/-- The prints of a page. -/
def texts : WebPage → List (List UInt8)
  | root => rootTexts b cfg
  | info => infoTexts b cfg
  | media => mediaTexts cfg
  | reboot => rebootTexts
  | result heading msg => resultTexts heading msg

/-- The handler of a page. -/
def handler : WebPage → PageConn → PageConn
  | root => extHttpWebPageRootHander b cfg
  | info => extHttpWebPageInfoHander b cfg
  | media => extHttpWebPageMediaHander cfg
  | reboot => extHttpWebPageReboot
  | result heading msg => extHttpWebPageResult heading msg

/-- The text of a page. -/
def text (page : WebPage) : List UInt8 := (page.texts b cfg).flatten

end WebPage

/-- A line of a header has no character that ends a line or a text. -/
def IsLine (line : List UInt8) : Prop := ∀ c ∈ line, c ≠ 0 ∧ c ≠ 10 ∧ c ≠ 13

/-- The field with the length of what follows the header. Blanks around the value
    are allowed. -/
def IsContentLength (n : Nat) (line : List UInt8) : Prop :=
  ∃ before after, line = ascii "Content-Length:" ++ List.replicate before 32 ++ dec n ++
    List.replicate after 32

/-- A header with the length of the body, and the body. -/
def IsResponse (response body : List UInt8) : Prop :=
  ∃ lines : List (List UInt8),
    (∀ line ∈ lines, IsLine line) ∧ (∃ line ∈ lines, IsContentLength body.length line) ∧
      response = lines.flatMap (· ++ crlf) ++ crlf ++ body

/-- What is in the buffer, up to the length that the connection has, is the
    response with a page, and the buffer holds it. -/
def PageServed (mhc : PageConn) (page : List UInt8) : Prop :=
  IsResponse (load mhc.data 0 mhc.contentLength.toNat) page ∧
    mhc.contentLength.toNat ≤ maxReqLength

/-- The header is as long as its prints. -/
theorem length_header : extHttpWebPagePrintHeader.flatten.length = 89 := by decide

section Lengths

theorem length_txOrRx (cfg : Cmd.RuntimeCfg) : (txOrRx cfg).length = 2 := by
  unfold txOrRx
  split <;> decide

theorem length_strBoolValue_le (b : UInt8) : (strBoolValue b).length ≤ 3 := by
  unfold strBoolValue
  split <;> decide

theorem length_dec2_le (b : UInt8) : (dec2 b).length ≤ 4 := by
  have hdec := length_dec8_le b
  unfold dec2
  split
  · rw [List.length_cons]
    omega
  · omega

/-- A number that `%d` prints of 32 bits. -/
theorem length_decInt_le (v : UInt32) : (decInt v.toInt32.toInt).length ≤ 11 := by
  have hle := v.toInt32.le_toInt
  have hlt := v.toInt32.toInt_lt
  have hdec : (dec v.toInt32.toInt.natAbs).length ≤ 10 := length_dec_le (by decide) (by omega)
  unfold decInt
  split
  · rw [List.length_cons]
    omega
  · omega

theorem length_rsParity_le (type : UInt16) : (extCmnStringFind .rsParity type).length ≤ 14 := by
  have hall : ∀ e ∈ StrType.rsParity.table, e.2.length ≤ 14 := by decide
  unfold extCmnStringFind
  cases hfind : StrType.rsParity.table.find? (·.1 = type) with
  | none => decide
  | some e => exact hall e (List.mem_of_find?_eq_some hfind)

theorem length_extFgpaReadVersion_le (v : FpgaVersion) : (extFgpaReadVersion v).length ≤ 60 := by
  have hside : (if v.version &&& 0x80 = 0 then ascii "RX" else ascii "TX").length = 2 := by
    split <;> decide
  rw [extFgpaReadVersion]
  simp only [List.length_append, hside]
  repeat rw [ascii_ofList]
  simp only [hex2, List.length_map, List.length_cons, List.length_nil]
  omega

end Lengths

section Respond

variable (texts : List (List UInt8)) (mhc : PageConn)

/-- The length of a response counts the digits twice: they are part of the header,
    and they are added to it. -/
theorem contentLength_respond :
    (respond texts mhc).contentLength =
      (89 + (dec texts.flatten.length).length + texts.flatten.length).toUInt16 := by
  simp only [respond, prints_index, length_header, Nat.zero_add]

/-- The page begins right behind the header, and the length is printed before it. -/
theorem respond_begin {start more : List UInt8} {rest : List (List UInt8)}
    (htexts : texts = (start ++ more) :: rest) (hstart : start.length < 100) {i : Nat}
    (hi : i < start.length) : (respond texts mhc).data (89 + i) = start[i] := by
  have hmax : maxReqLength = 3072 := rfl
  rw [htexts]
  simp only [respond, prints_index, length_header, Nat.zero_add, prints]
  rw [snprintf_above _ _ _ _ (by omega), prints_below _ _ _ _ (by rw [List.length_append]; omega),
    room_of_le _ (by omega) (Nat.zero_le _), Nat.add_zero,
    snprintf_apply _ _ (by rw [List.length_append]; omega) (by omega),
    List.getElem_append_left hi]

/-- The header of a response ends a line. -/
theorem getElem_header {lines : List (List UInt8)} {body : List UInt8} {i : Nat}
    (hi : (lines.flatMap (· ++ crlf) ++ crlf).length = i + 1) :
    (lines.flatMap (· ++ crlf) ++ crlf ++ body)[i]? = some 10 := by
  have hlen : (lines.flatMap (· ++ crlf)).length = i - 1 := by
    rw [List.length_append] at hi
    have hcrlf : crlf.length = 2 := rfl
    omega
  have hpos : 2 ≤ i + 1 := by
    rw [← hi, List.length_append]
    exact Nat.le_add_left _ _
  rw [List.getElem?_append_left (by omega), List.getElem?_append_right (by omega), hlen,
    show i - (i - 1) = 1 by omega]
  rfl

/-- A response whose page does not begin with the end of a line is not the one of its
    page: for that, its header would be longer than the one that was printed, by as
    many characters of the page as the length has digits. -/
theorem not_pageServed_respond {start more : List UInt8} {rest : List (List UInt8)}
    (htexts : texts = (start ++ more) :: rest) (hlen : start.length = 5) (hstart : 10 ∉ start) :
    ¬ PageServed (respond texts mhc) texts.flatten := by
  rintro ⟨⟨lines, -, -, heq⟩, -⟩
  have htotal := congrArg List.length heq
  rw [length_load, contentLength_respond, List.length_append, Nat.toUInt16,
    UInt16.toNat_ofNat'] at htotal
  rcases hdigits : (dec texts.flatten.length).length with _ | d
  · exact dec_ne_nil _ (List.length_eq_zero_iff.mp hdigits)
  have hfive : (dec texts.flatten.length).length ≤ 5 := length_dec_le (by decide) (by omega)
  -- The header has taken in the first characters of the page.
  have hheader : (lines.flatMap (· ++ crlf) ++ crlf).length = 89 + d + 1 := by omega
  have hlast : (lines.flatMap (· ++ crlf) ++ crlf ++ texts.flatten)[89 + d]? = some 10 :=
    getElem_header hheader
  rw [← heq] at hlast
  rcases List.getElem?_eq_some_iff.mp hlast with ⟨hbound, hlf⟩
  have hd : d < start.length := by omega
  have hbegin := respond_begin texts mhc htexts (by omega) hd
  rw [getElem_load, Nat.zero_add, hbegin] at hlf
  exact hstart (hlf ▸ List.getElem_mem hd)

/-- What the buffer holds of a page that fits: the header with the digits of the
    length and a NUL in it, and the page. -/
theorem load_respond (hfit : texts.flatten.length < 2983) :
    load (respond texts mhc).data 0 (89 + texts.flatten.length) =
      extHttpWebPagePrintHeader.flatten.take 81 ++ (dec texts.flatten.length ++ [0]) ++
        extHttpWebPagePrintHeader.flatten.drop (82 + (dec texts.flatten.length).length) ++
        texts.flatten := by
  have hmax : maxReqLength = 3072 := rfl
  have hd : (dec texts.flatten.length).length ≤ 4 := length_dec_le (by decide) (by omega)
  have hheader : load (prints 0 maxReqLength 0 extHttpWebPagePrintHeader mhc.data).1 0 89 =
      extHttpWebPagePrintHeader.flatten := by
    have hload := load_prints mhc.data 0 maxReqLength 0 extHttpWebPagePrintHeader (by omega)
      (by rw [length_header]; omega)
    rwa [length_header] at hload
  generalize hd' : (dec texts.flatten.length).length = d at hd ⊢
  simp only [respond, prints_index, length_header, Nat.zero_add]
  generalize hmem : (prints 0 maxReqLength 0 extHttpWebPagePrintHeader mhc.data).1 = mem
    at hheader ⊢
  have hprinted : load (prints 89 (maxReqLength - 89) 0 texts mem).1 0 89 =
      extHttpWebPagePrintHeader.flatten := by
    rw [← hheader]
    exact load_congr fun i _ hi => prints_below _ _ _ texts (by omega)
  have hpage := load_prints mem 89 (maxReqLength - 89) 0 texts (by omega) (by omega)
  generalize (prints 89 (maxReqLength - 89) 0 texts mem).1 = page at hprinted hpage ⊢
  have hpatched : load (snprintf page (0 + 81) 5 (dec texts.flatten.length)) 0 89 = _ :=
    load_snprintf_within page 0 (by omega) (by omega)
  have hkept : load (snprintf page 81 5 (dec texts.flatten.length)) 89 texts.flatten.length =
      load page 89 texts.flatten.length :=
    load_congr fun i hi _ => snprintf_above _ _ _ _ (by omega)
  rw [Nat.zero_add, hprinted, hd'] at hpatched
  rw [load_append, hpatched, Nat.zero_add, hkept, hpage, show 81 + d + 1 = 82 + d by omega]

end Respond

namespace WebPage

variable (b : Build) (cfg : Cmd.RuntimeCfg)

theorem exists_start {first : List UInt8} (more : List UInt8) (rest : List (List UInt8))
    (hlen : 5 ≤ first.length) (hlf : 10 ∉ first.take 5) : ∃ start more' rest',
    (first ++ more) :: rest = (start ++ more') :: rest' ∧ start.length = 5 ∧ 10 ∉ start := by
  refine ⟨first.take 5, first.drop 5 ++ more, rest, ?_, ?_, hlf⟩
  · rw [← List.append_assoc, List.take_append_drop]
  · rw [List.length_take]
    omega

/-- A page begins with a tag. -/
theorem texts_begin (page : WebPage) : ∃ start more rest,
    page.texts b cfg = (start ++ more) :: rest ∧ start.length = 5 ∧ 10 ∉ start := by
  cases page with
  | root =>
      simp only [texts, rootTexts, rootBodyTexts, List.append_assoc, List.cons_append]
      exact exists_start _ _ (by decide) (by decide)
  | info =>
      simp only [texts, infoTexts, title, List.append_assoc, List.cons_append]
      exact exists_start _ _ (by decide) (by decide)
  | media =>
      simp only [texts, mediaTexts, title, List.append_assoc]
      exact exists_start _ _ (by decide) (by decide)
  | reboot =>
      simp only [texts, rebootTexts, title, List.append_assoc]
      exact exists_start _ _ (by decide) (by decide)
  | result heading msg =>
      simp only [texts, resultTexts, title, List.append_assoc]
      exact exists_start _ _ (by decide) (by decide)

/-- The pages that are made of the configuration fit behind the header, whatever the
    configuration is. -/
theorem text_fits (page : WebPage) (h : ∀ heading msg, page ≠ result heading msg) :
    (page.text b cfg).length < 2500 := by
  have hbuild := b.length_buildDateTime
  have htx := length_txOrRx cfg
  cases page with
  | root =>
      simp only [text, texts, rootTexts, rootBodyTexts, rootScriptTexts, navigation, extOsName,
        crlf, List.flatten_append, List.flatten_cons, List.flatten_nil]
      repeat rw [ascii_ofList]
      simp only [List.length_append, List.length_map, List.length_cons, List.length_nil,
        Nat.reduceAdd, hbuild, htx]
      omega
  | info =>
      -- Only the version depends on what can be read of the FPGA.
      have hversion : (versionTexts b cfg).flatten.length ≤ 300 := by
        have hmajor := length_dec2_le cfg.version.major
        have hminor := length_dec2_le cfg.version.minor
        have hrevision := length_dec2_le cfg.version.revision
        unfold versionTexts
        split
        · have hfpga := length_extFgpaReadVersion_le ‹_›
          simp only [label, divDiv, List.flatten_cons, List.flatten_nil]
          repeat rw [ascii_ofList]
          simp only [List.length_append, List.length_map, List.length_cons, List.length_nil,
            hbuild]
          omega
        · simp only [label, divDiv, List.flatten_cons, List.flatten_nil]
          repeat rw [ascii_ofList]
          simp only [List.length_append, List.length_map, List.length_cons, List.length_nil]
          omega
      -- What is printed of the configuration is bounded field by field.
      have hname := cfg.name.fits
      have hip := length_ip4addrNtoa_le cfg.local.ip
      have hmask := length_ip4addrNtoa_le cfg.ipMask
      have hgateway := length_ip4addrNtoa_le cfg.ipGateway
      have hdhcp := length_strBoolValue_le cfg.netMode
      have hdip := length_strBoolValue_le cfg.isDipOn
      have hbaud := length_decInt_le cfg.rs232Cfg.baudRate
      have hbits := length_dec8_le cfg.rs232Cfg.charLength
      have hparity := length_rsParity_le cfg.rs232Cfg.parityType.toUInt16
      have hmac := length_macPrint cfg.local.mac
      have hstop := length_dec8_le cfg.rs232Cfg.stopbits
      simp only [text, texts, infoTexts, label, label', divDiv, title, fieldsInfo, crlf, quoted,
        List.flatten_append, List.flatten_cons, List.flatten_nil]
      repeat rw [ascii_ofList]
      simp only [List.length_append, List.length_map, List.length_cons, List.length_nil, htx]
      omega
  | media =>
      have hmcast := length_strBoolValue_le cfg.isMCast
      have hip := length_ip4addrNtoa_le cfg.dest.ip
      have hvport := length_dec16_le cfg.dest.vport
      have haport := length_dec16_le cfg.dest.aport
      have hdport := length_dec16_le cfg.dest.dport
      have hsport := length_dec16_le cfg.dest.sport
      have hwidth := length_dec16_le cfg.runtime.vWidth
      have hheight := length_dec16_le cfg.runtime.vHeight
      have hrate := length_dec8_le cfg.runtime.vFrameRate
      have hdepth := length_dec8_le cfg.runtime.vDepth
      have hcolor := length_colorName_le cfg.runtime.vColorSpace.toUInt16
      have haudio := length_dec16_le cfg.runtime.aSampleRate
      have hbits := length_dec8_le cfg.runtime.aDepth
      have hchannels := length_dec8_le cfg.runtime.aChannels
      simp only [text, texts, mediaTexts, label, label', divDiv, title, fieldsInfo,
        List.flatten_cons, List.flatten_nil]
      repeat rw [ascii_ofList]
      simp only [List.length_append, List.length_map, List.length_cons, List.length_nil]
      omega
  | reboot =>
      simp only [text, texts, rebootTexts, title, fieldsInfo, List.flatten_cons,
        List.flatten_nil]
      repeat rw [ascii_ofList]
      simp only [List.length_append, List.length_map, List.length_cons, List.length_nil]
      omega
  | result heading msg => exact absurd rfl (h heading msg)

/-- Every handler answers with the prints of its page. -/
theorem handler_eq (page : WebPage) (mhc : PageConn) :
    ∃ mhc', page.handler b cfg mhc = respond (page.texts b cfg) mhc' := by
  cases page <;> exact ⟨_, rfl⟩

end WebPage

/-- No handler leaves the response of its page, for any configuration. -/
theorem not_pageServed (b : Build) (cfg : Cmd.RuntimeCfg) (page : WebPage) (mhc : PageConn) :
    ¬ PageServed (page.handler b cfg mhc) (page.text b cfg) := by
  rcases page.handler_eq b cfg mhc with ⟨mhc', heq⟩
  rcases page.texts_begin b cfg with ⟨start, more, rest, htexts, hlen, hstart⟩
  rw [heq]
  exact not_pageServed_respond _ _ htexts hlen hstart

/-- What the connection sends of a page that is made of the configuration: a header
    with a NUL in it and the page, and then as many bytes as the length has digits. -/
theorem load_handler (b : Build) (cfg : Cmd.RuntimeCfg) (page : WebPage) (mhc : PageConn)
    (h : ∀ heading msg, page ≠ .result heading msg) :
    let n := (page.text b cfg).length
    (page.handler b cfg mhc).contentLength.toNat = 89 + n + (dec n).length ∧
      (page.handler b cfg mhc).contentLength.toNat ≤ maxReqLength ∧
      load (page.handler b cfg mhc).data 0 (89 + n) =
        extHttpWebPagePrintHeader.flatten.take 81 ++ (dec n ++ [0]) ++
          extHttpWebPagePrintHeader.flatten.drop (82 + (dec n).length) ++ page.text b cfg := by
  have hfit := page.text_fits b cfg h
  have hd : (dec (page.text b cfg).length).length ≤ 4 := length_dec_le (by decide) (by omega)
  have hmax : maxReqLength = 3072 := rfl
  rcases page.handler_eq b cfg mhc with ⟨mhc', heq⟩
  have hlen : (page.handler b cfg mhc).contentLength.toNat =
      89 + (page.text b cfg).length + (dec (page.text b cfg).length).length := by
    rw [heq, contentLength_respond, Nat.toUInt16, UInt16.toNat_ofNat']
    change (89 + (dec (page.text b cfg).length).length + (page.text b cfg).length) % 2 ^ 16 = _
    omega
  refine ⟨hlen, by omega, ?_⟩
  rw [heq]
  exact load_respond (page.texts b cfg) mhc' (hfit.trans (by decide))

/-- The smallest page has 119 characters, the response 211, and 208 would be right. -/
theorem not_pageServed_reboot : ¬ PageServed
    (WebPage.reboot.handler ⟨List.replicate 20 32, List.length_replicate, none⟩ Cmd.RuntimeCfg.zero
      ⟨fun _ => 0, 0, 0, 100⟩)
    (WebPage.reboot.text ⟨List.replicate 20 32, List.length_replicate, none⟩
      Cmd.RuntimeCfg.zero) := by
  rcases WebPage.reboot.handler_eq ⟨List.replicate 20 32, List.length_replicate, none⟩
    Cmd.RuntimeCfg.zero ⟨fun _ => 0, 0, 0, 100⟩ with ⟨mhc', heq⟩
  rcases WebPage.reboot.texts_begin ⟨List.replicate 20 32, List.length_replicate, none⟩
    Cmd.RuntimeCfg.zero with ⟨start, more, rest, htexts, hlen, hstart⟩
  rw [heq]
  exact not_pageServed_respond _ _ htexts hlen hstart

end Http

end RtosLwip
