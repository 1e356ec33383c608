import MigtdIgvmVerifier.Rust.Core

/-!
# The quote extractor

`migtd-quote-extractor` asks the vTPM of an Azure confidential VM for a TD report, takes out of it
the measurements that a ServTD collateral needs, as hex strings, and writes them to a JSON file.
The vTPM and the conversion of its report belong to the `az-tdx-vtpm` crate, `hex::decode` to the
`hex` crate, the JSON encoding to `serde_json` and the write to the file system. They are
parameters here, each returning its value, its error, or a panic inside it; the vTPM is the
answer it gives to each numbered attempt. Logging is left out, and with it `--verbose`, which only
sets the log level.

`getTdReportFromVtpm` calls the vTPM at most `maxRetries` times, sleeps five seconds between two
calls and never after the last, and converts the report of the first call that answers, once.
Every call sends the 48 bytes of report data, zeros by default, padded with zeros to 64.
`extractQuoteData` copies six fields of the TD info through `bytes_to_hex` and fills the others
with constants, so two reports that differ only in what it does not read give the same data.
`quoteExtractorMain` then encodes the data and writes it to the output file; a write that fails
is not counted as one.
-/

namespace MigtdIgvmVerifier.Quote.Extractor

open Rust

/-! ## Hex strings -/

/-- The digit `digit < 16` as `{:X}` prints it. -/
def upperHexDigit (digit : Nat) : Char := (Nat.digitChar digit).toUpper

/-- `bytes_to_hex`: every byte as `{:02X}`, two upper-case hex digits. -/
def bytesToHex (bytes : List UInt8) : String :=
  ⟨bytes.flatMap fun byte => [upperHexDigit (byte.toNat / 16), upperHexDigit (byte.toNat % 16)]⟩

/-! ## The TD report and the quote data -/

/-- The fields of `tdx::TdInfo` that the tool reads, with the widths the TDX module gives them. -/
structure TdInfo where
  attributes : List UInt8
  xfam : List UInt8
  mrtd : List UInt8
  mrconfigid : List UInt8
  mrowner : List UInt8
  mrownerconfig : List UInt8
  attributes_length : attributes.length = 8
  xfam_length : xfam.length = 8
  mrtd_length : mrtd.length = 48
  mrconfigid_length : mrconfigid.length = 48
  mrowner_length : mrowner.length = 48
  mrownerconfig_length : mrownerconfig.length = 48

/-- A `tdx::TdReport`, as far as the tool reads it. -/
structure TdReport where
  tdinfo : TdInfo

/-- `QuoteData`, the record the tool writes as JSON. -/
structure QuoteData where
  mrtd : String
  rtmr0 : String
  rtmr1 : String
  rtmr2 : String
  rtmr3 : String
  xfam : String
  attributes : String
  mrConfigId : String
  mrOwner : String
  mrOwnerConfig : String
  mrsigner : String
  servtdHash : String
  isvProdId : UInt16
  isvsvn : UInt16

/-- A hex string of `digits` zeros, the text of every all-zero constant of the tool. -/
def zeroHex (digits : Nat) : String := ⟨List.replicate digits '0'⟩

/-- `RTMR0`: 48 zero bytes, as an Azure Underhill quote reports. -/
def rtmr0 : String := zeroHex 96

/-- `RTMR1`. -/
def rtmr1 : String := zeroHex 96

/-- `RTMR2`. -/
def rtmr2 : String := zeroHex 96

/-- `RTMR3`. -/
def rtmr3 : String := zeroHex 96

/-- The `mrsigner` the tool copies from the policy template. -/
def mrsignerTemplate : String :=
  "8C4F5775D796503E96137F77C68A829A0056AC8DED70140B081B094490C57BFF000000000000000000000000000000"

/-- `extract_quote_data`, which always returns `Ok`, so that the context `main` gives its error
is never reported. -/
def extractQuoteData (tdReport : TdReport) : QuoteData where
  mrtd := bytesToHex tdReport.tdinfo.mrtd
  rtmr0 := rtmr0
  rtmr1 := rtmr1
  rtmr2 := rtmr2
  rtmr3 := rtmr3
  xfam := bytesToHex tdReport.tdinfo.xfam
  attributes := bytesToHex tdReport.tdinfo.attributes
  mrConfigId := bytesToHex tdReport.tdinfo.mrconfigid
  mrOwner := bytesToHex tdReport.tdinfo.mrowner
  mrOwnerConfig := bytesToHex tdReport.tdinfo.mrownerconfig
  mrsigner := mrsignerTemplate
  servtdHash := zeroHex 96
  isvProdId := 0
  isvsvn := 1

/-! ## Asking the vTPM -/

/-- What the tool asks of the platform. -/
inductive Effect where
  /-- `vtpm::get_report_with_report_data(&report_data_64)`. -/
  | getReport (reportData64 : List UInt8)
  /-- `std::thread::sleep(Duration::from_secs(seconds))`. -/
  | sleep (seconds : Nat)
  /-- `fs::write(path, json)`, once it has returned. -/
  | writeFile (path : String) (json : String)
  deriving DecidableEq, Repr

/-- `max_retries`. -/
def maxRetries : Nat := 3

/-- The report data the tool sends, 48 bytes by its type. -/
structure ReportData where
  bytes : List UInt8
  length_eq : bytes.length = 48

/-- `report_data_64`: the report data, or 48 zeros, padded with zeros to the 64 bytes the vTPM
takes. -/
def reportData64 (reportData : Option ReportData) : List UInt8 :=
  reportData.elim (List.replicate 48 0) ReportData.bytes ++ List.replicate 16 0

section Retry

variable {Report HclReport : Type}

/-- `HclReport::new(report)`, then `TdReport::try_from(hcl_report)`, each error under its
context. -/
def convertReport (newHclReport : Report → Outcome HclReport)
    (tdReportOfHcl : HclReport → Outcome TdReport) (report : Report) : Outcome TdReport := do
  let hclReport ← (newHclReport report).context "Failed to create HCL report"
  (tdReportOfHcl hclReport).context "Failed to convert HCL report to TD report"

/-- The loop `for attempt in 1..=max_retries` from `attempt`, with `remaining` attempts left: its
result, and what it asks of the platform. `answers attempt` is the vTPM's answer to the call of
that attempt; a panic in the call ends the loop. -/
def retryLoop (answers : Nat → Outcome Report) (convert : Report → Outcome TdReport)
    (request : List UInt8) : Nat → Nat → Outcome TdReport × List Effect
  | _, 0 => (.error s!"Failed to get TD report after {maxRetries} attempts", [])
  | attempt, remaining + 1 =>
    match answers attempt with
    | .ok report => (convert report, [.getReport request])
    | .error _ =>
      let (result, effects) := retryLoop answers convert request (attempt + 1) remaining
      (result, .getReport request :: ((if attempt < maxRetries then [.sleep 5] else []) ++ effects))
    | .panic message => (.panic message, [.getReport request])

/-- `get_td_report_from_vtpm(report_data)`. -/
def getTdReportFromVtpm (answers : Nat → Outcome Report)
    (newHclReport : Report → Outcome HclReport) (tdReportOfHcl : HclReport → Outcome TdReport)
    (reportData : Option ReportData) : Outcome TdReport × List Effect :=
  retryLoop answers (convertReport newHclReport tdReportOfHcl) (reportData64 reportData) 1
    maxRetries

/-! ## The tool -/

/-- `Args` of `migtd-quote-extractor`, with the default `clap` gives `--output-json`. -/
structure Args where
  outputJson : String := "migtd_quote_data.json"
  reportData : Option String := none

/-- `--report-data`: `hex::decode`, then the check that it gives 48 bytes. -/
def parseReportData (hexDecode : String → Outcome (List UInt8)) :
    Option String → Outcome (Option ReportData)
  | none => .ok none
  | some hexStr => do
    let bytes ← (hexDecode hexStr).context "Invalid hex string for report data"
    if h : bytes.length = 48 then .ok (some ⟨bytes, h⟩)
    else .error "Report data must be exactly 48 bytes"

/-- The end of `main`: the quote data of the TD report, encoded by
`serde_json::to_string_pretty` and written to `path`; the text it wrote. -/
def writeQuoteData (toStringPretty : QuoteData → Outcome String)
    (writeFile : String → String → Outcome Unit) (path : String) (tdReport : TdReport) :
    Outcome String := do
  let json ← (toStringPretty (extractQuoteData tdReport)).context "Failed to serialize quote data"
  let _ ← (writeFile path json).context ("Failed to write to " ++ path)
  pure json

/-- `main` after its logger: how it ends, and what it asked of the platform. -/
def quoteExtractorMain (hexDecode : String → Outcome (List UInt8))
    (answers : Nat → Outcome Report) (newHclReport : Report → Outcome HclReport)
    (tdReportOfHcl : HclReport → Outcome TdReport) (toStringPretty : QuoteData → Outcome String)
    (writeFile : String → String → Outcome Unit) (args : Args) : Outcome Unit × List Effect :=
  match parseReportData hexDecode args.reportData with
  | .ok reportData =>
    let (tdReport, effects) := getTdReportFromVtpm answers newHclReport tdReportOfHcl reportData
    match tdReport.context "Failed to get TD report from vTPM" >>=
        writeQuoteData toStringPretty writeFile args.outputJson with
    | .ok json => (.ok (), effects ++ [.writeFile args.outputJson json])
    | .error message => (.error message, effects)
    | .panic message => (.panic message, effects)
  | .error message => (.error message, [])
  | .panic message => (.panic message, [])

end Retry

end MigtdIgvmVerifier.Quote.Extractor
