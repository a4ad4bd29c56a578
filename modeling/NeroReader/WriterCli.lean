import NeroReader.WriterFields

/-!
The serial commands of the writer. Bytes are gathered into a line, the line is split into a command word and the
text behind it, and the command writes the configuration field by field: the identifier of the URI first, then the
arrays as it copies them, the kind last. The encoder is asked afterwards. `handleLine` answers whether the
payload was updated. Whether `char` is signed is the compiler's choice and a parameter here; it decides where the
command word ends.
-/

namespace NeroReader.WriterPayload

open Ndef

def ndefMaxBytes : Nat := 880
def space : Byte := 0x20
def dash : Byte := 0x2D
def equals : Byte := 0x3D
def underscore : Byte := 0x5F
def cr : Byte := 0x0D
def lf : Byte := 0x0A

/-! ### Comparing and splitting -/

/-- `tolower`. -/
def lower (ch : Byte) : Byte := if 0x41 ≤ ch ∧ ch ≤ 0x5A then ch + 0x20 else ch

/-- `starts_ci`. -/
def startsCi : Frame → Frame → Bool
  | _, [] => true
  | [], _ :: _ => false
  | a :: s, b :: pfx => if lower a ≠ lower b then false else startsCi s pfx

/-- `line_eq_ci`. -/
def lineEqCi : Frame → Frame → Bool
  | s, [] => s.isEmpty
  | [], _ :: _ => false
  | a :: s, b :: want => if lower a ≠ lower b then false else lineEqCi s want

/-- `split_pipe`. -/
def splitPipe (rest : Frame) : Frame × Option Frame × Option Frame :=
  if bar ∈ rest then
    let second := behindBar rest
    if bar ∈ second then (beforeBar rest, some (beforeBar second), some (behindBar second))
    else (beforeBar rest, some second, none)
  else (rest, none, none)

/-- `writer_serial_cli_snprintf_buf`: a text that does not fit leaves the empty string. -/
def snprintfBuf (cap : Nat) (text : Frame) : Frame × Bool := if cap ≤ text.length then ([], false) else (text, true)

/-- The fields behind the first, put together again. -/
def joinFields (second third : Option Frame) : Frame :=
  match second, third with
  | some second, some third => (snprintfBuf str2Max (second ++ bar :: third)).1
  | some second, none => (snprintfBuf str2Max second).1
  | none, _ => []

def httpsPrefix : Frame := ascii "https://"

/-- `strip_https_prefix`. -/
def CharArray.stripHttpsPrefix (s : CharArray str1Max) : CharArray str1Max :=
  if startsCi (cText s.bytes) httpsPrefix then
    match boundedStrlen s.bytes str1Max with
    | some n =>
        if httpsPrefix.length ≤ n then
          s.put 0 ((s.bytes.drop httpsPrefix.length).take (n - httpsPrefix.length + 1))
        else s
    | none => s
  else s

/-- The loop of `parse_hex_bytes`, with the high nibble waiting and the bytes so far. -/
def parseHexFrom (outCap : Nat) : Option Byte → Frame → Frame → Option Frame
  | hi, out, [] => if hi.isSome ∨ out.length = 0 then none else some out
  | hi, out, ch :: text =>
      if ch = space ∨ ch = colon ∨ ch = dash ∨ ch = underscore then parseHexFrom outCap hi out text
      else
        match hexNibble ch, hi with
        | none, _ => none
        | some v, none => parseHexFrom outCap (some v) out text
        | some v, some hi =>
            if outCap ≤ out.length then none else parseHexFrom outCap none (out ++ [hi <<< 4 ||| v]) text

/-- `parse_hex_bytes`. -/
def parseHexBytes (text : Frame) (outCap : Nat) : Option Frame :=
  if outCap = 0 then none else parseHexFrom outCap none [] text

/-! ### The commands -/

inductive Command where
  | url
  | text
  | phone
  | sms
  | mailto
  | geo
  | vcard
  | wifi
  | bt
  | search
  | address (destination : Bool)
  | uri
  | ndefHex
  deriving DecidableEq, Repr

/-- The command a word stands for: the first of these prefixes in the order of the comparisons. -/
def command (cmd : Frame) : Option Command :=
  if startsCi cmd (ascii "url") then some .url
  else if startsCi cmd (ascii "text") || startsCi cmd (ascii "data") then some .text
  else if startsCi cmd (ascii "phone") || startsCi cmd (ascii "phone-number") then some .phone
  else if startsCi cmd (ascii "sms") then some .sms
  else if startsCi cmd (ascii "mailto") || startsCi cmd (ascii "mail") then some .mailto
  else if startsCi cmd (ascii "geo") || startsCi cmd (ascii "location") ||
      startsCi cmd (ascii "custom-location") then some .geo
  else if startsCi cmd (ascii "vcard") || startsCi cmd (ascii "contact") then some .vcard
  else if startsCi cmd (ascii "wifi") then some .wifi
  else if startsCi cmd (ascii "bt") || startsCi cmd (ascii "bluetooth") then some .bt
  else if startsCi cmd (ascii "search") then some .search
  else if startsCi cmd (ascii "address") || startsCi cmd (ascii "destination-address") then
    some (.address (startsCi cmd (ascii "destination-address")))
  else if startsCi cmd (ascii "launch") || startsCi cmd (ascii "uri") || startsCi cmd (ascii "link") ||
      startsCi cmd (ascii "unit-link") || startsCi cmd (ascii "social") || startsCi cmd (ascii "video") ||
      startsCi cmd (ascii "file") || startsCi cmd (ascii "application") then some .uri
  else if startsCi cmd (ascii "ndef-hex") then some .ndefHex
  else none

/-- A command whose one field is copied as it stands, or made by a formatter. -/
def Config.copySingle (cfg : Config) (kind : Kind) (field : Frame) : Config × Bool :=
  let copied := cfg.str1.copyField (some field)
  if copied.2 then ({ cfg with str1 := copied.1, str2 := cfg.str2.put 0 [0], kind := kind }, true)
  else ({ cfg with str1 := copied.1 }, false)

/-- A command that formats a URI around its field. -/
def Config.copyFormatted (cfg : Config) (pfx rest : Frame) : Config × Bool :=
  let cfg := { cfg with uriId := uriPrefixNone }
  let uri := snprintfBuf str1Max (pfx ++ rest)
  if rest = [] then (cfg, false) else if uri.2 then cfg.copySingle .uriRaw uri.1 else (cfg, false)

def searchUri : Frame := ascii "https://www.google.com/search?q="
def mapsDirUri : Frame := ascii "https://www.google.com/maps/dir/?api=1&destination="
def mapsSearchUri : Frame := ascii "https://www.google.com/maps/search/?api=1&query="

def applyUrl (cfg : Config) (rest : Frame) : Config × Bool :=
  let cfg := { cfg with uriId := uriPrefixHttps }
  let copied := cfg.str1.copyField (some rest)
  if copied.2 then
    ({ cfg with str1 := copied.1.stripHttpsPrefix, str2 := cfg.str2.put 0 [0], kind := .urlHttps }, true)
  else ({ cfg with str1 := copied.1 }, false)

def applyText (cfg : Config) (rest : Frame) : Config × Bool := { cfg with uriId := 0 }.copySingle .plainText rest
def applyGeo (cfg : Config) (rest : Frame) : Config × Bool := { cfg with uriId := 0 }.copySingle .geoUri rest
def applyBt (cfg : Config) (rest : Frame) : Config × Bool := { cfg with uriId := 0 }.copySingle .btOob rest
def applyUri (cfg : Config) (rest : Frame) : Config × Bool := { cfg with uriId := 0 }.copySingle .uriRaw rest

def applyPhone (cfg : Config) (rest : Frame) : Config × Bool := cfg.copyFormatted (ascii "tel:") rest
def applySearch (cfg : Config) (rest : Frame) : Config × Bool := cfg.copyFormatted searchUri rest

def applyAddress (cfg : Config) (destination : Bool) (rest : Frame) : Config × Bool :=
  cfg.copyFormatted (if destination then mapsDirUri else mapsSearchUri) rest

/-- The third field is not looked at, and neither is the answer of the second copy. -/
def applySms (cfg : Config) (rest : Frame) : Config × Bool :=
  let cfg := { cfg with uriId := 0 }
  let fields := splitPipe rest
  let first := cfg.str1.copyField (some fields.1)
  if first.2 then
    ({ cfg with str1 := first.1, str2 := (cfg.str2.copyField (some (fields.2.1.getD []))).1, kind := .smsUri }, true)
  else ({ cfg with str1 := first.1 }, false)

def applyMailto (cfg : Config) (rest : Frame) : Config × Bool :=
  let cfg := { cfg with uriId := 0 }
  let fields := splitPipe rest
  let first := cfg.str1.copyField (some fields.1)
  if first.2 then
    ({ cfg with
        str1 := first.1, str2 := (cfg.str2.copyField (some (joinFields fields.2.1 fields.2.2))).1, kind := .mailtoUri },
      true)
  else ({ cfg with str1 := first.1 }, false)

def applyVcard (cfg : Config) (rest : Frame) : Config × Bool :=
  let cfg := { cfg with uriId := 0 }
  let fields := splitPipe rest
  let first := cfg.str1.copyField (some fields.1)
  if first.2 then
    let second := cfg.str2.copyField (some (joinFields fields.2.1 fields.2.2))
    if second.2 then ({ cfg with str1 := first.1, str2 := second.1, kind := .vcardMime }, true)
    else ({ cfg with str1 := first.1, str2 := second.1 }, false)
  else ({ cfg with str1 := first.1 }, false)

/-- A missing second field is copied as no string, which empties the array and succeeds. -/
def applyWifi (cfg : Config) (rest : Frame) : Config × Bool :=
  let cfg := { cfg with uriId := 0 }
  let fields := splitPipe rest
  let first := cfg.str1.copyField (some fields.1)
  if first.2 then
    let second := cfg.str2.copyField fields.2.1
    if second.2 then ({ cfg with str1 := first.1, str2 := second.1, kind := .wifiWsc }, true)
    else ({ cfg with str1 := first.1, str2 := second.1 }, false)
  else ({ cfg with str1 := first.1 }, false)

/-- The digits are read once without a buffer, so the bytes of the context change only when all of them are good. -/
def applyNdefHex (cfg : Config) (rest : Frame) : Config × Bool :=
  match parseHexBytes rest ndefMaxBytes with
  | none => (cfg, false)
  | some raw =>
      ({ cfg with rawNdef := raw, str1 := cfg.str1.put 0 [0], str2 := cfg.str2.put 0 [0], kind := .rawNdef }, true)

/-- The branches of `writer_cli_apply_command`. -/
def Command.apply (cfg : Config) (rest : Frame) : Command → Config × Bool
  | .url => applyUrl cfg rest
  | .text => applyText cfg rest
  | .phone => applyPhone cfg rest
  | .sms => applySms cfg rest
  | .mailto => applyMailto cfg rest
  | .geo => applyGeo cfg rest
  | .vcard => applyVcard cfg rest
  | .wifi => applyWifi cfg rest
  | .bt => applyBt cfg rest
  | .search => applySearch cfg rest
  | .address destination => applyAddress cfg destination rest
  | .uri => applyUri cfg rest
  | .ndefHex => applyNdefHex cfg rest

/-- `writer_cli_apply_command`. -/
def applyCommand (cfg : Config) (cmd rest : Frame) : Config × Bool :=
  match command cmd with
  | none => (cfg, false)
  | some c => c.apply cfg rest

/-! ### The line -/

/-- A long option without its dashes, its first `=` a blank. -/
def longOption (line : Frame) : Frame :=
  if u8At line 0 = dash ∧ u8At line 1 = dash then
    let line := line.drop 2
    if equals ∈ line then line.takeWhile (· ≠ equals) ++ space :: (line.dropWhile (· ≠ equals)).tail else line
  else line

/-- `*rest > ' '`. -/
def aboveSpace (signed : Bool) (ch : Byte) : Bool := if signed then BitVec.slt space ch else decide (space < ch)

/-- The command word and the text behind it; the character that ends the word is lost. -/
def splitCommand (signed : Bool) (line : Frame) : Frame × Frame :=
  (trimText (line.takeWhile (aboveSpace signed)), ((line.dropWhile (aboveSpace signed)).tail).dropWhile isBlank)

/-- The word and the text of a line that gets as far as the commands. -/
def commandLine (signed : Bool) (line : Frame) : Option (Frame × Frame) :=
  let line := trimText line
  if line = [] then none
  else
    let line := longOption line
    if lineEqCi line (ascii "mode reader") || lineEqCi line (ascii "mode writer") then none
    else
      let split := splitCommand signed line
      if startsCi split.1 (ascii "help") || startsCi split.1 (ascii "?") || startsCi split.1 (ascii "show") then none
      else some split

/-- What `writer_payload_ndef_len` measures and the tag writers write. -/
def Config.message (cfg : Config) : Frame := buildNdefMessage cfg ndefMaxBytes

/-- `handle_line`. -/
def handleLine (signed : Bool) (cfg : Config) (line : Frame) : Config × Bool :=
  match commandLine signed line with
  | none => (cfg, false)
  | some (cmd, rest) =>
      let applied := applyCommand cfg cmd rest
      if applied.2 then
        let cfg := if applied.1.kind ≠ .rawNdef then { applied.1 with rawNdef := [] } else applied.1
        (cfg, decide (cfg.message.length ≠ 0))
      else applied

/-! ### The serial input -/

/-- The line gathered so far. -/
structure LineBuffer where
  text : Frame
  length_lt : text.length < lineCap
  printable : ∀ ch ∈ text, space ≤ ch

def LineBuffer.empty : LineBuffer := ⟨[], by decide, by simp⟩

structure Cli where
  config : Config
  line : LineBuffer
  overflow : Bool

/-- A byte of `writer_serial_cli_poll`: the new state, and whether the payload was updated. -/
def poll (signed : Bool) (cli : Cli) (ch : Byte) : Cli × Bool :=
  if ch = cr ∨ ch = lf then
    if cli.overflow then ({ cli with line := .empty, overflow := false }, false)
    else if 0 < cli.line.text.length then
      let handled := handleLine signed cli.config cli.line.text
      ({ cli with config := handled.1, line := .empty }, handled.2)
    else (cli, false)
  else if hch : ch < space then (cli, false)
  else if hlen : cli.line.text.length < lineCap - 1 then
    ({ cli with
        line :=
          { text := cli.line.text ++ [ch]
            length_lt := by
              rw [List.length_append, List.length_singleton]
              omega
            printable := by
              intro c hc
              rcases List.mem_append.mp hc with hc | hc
              · exact cli.line.printable c hc
              · rw [List.mem_singleton.mp hc]
                exact BitVec.not_lt.mp hch } }, false)
  else ({ cli with overflow := true }, false)

end NeroReader.WriterPayload
