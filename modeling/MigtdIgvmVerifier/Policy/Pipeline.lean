import MigtdIgvmVerifier.Cfv.Extract
import MigtdIgvmVerifier.Config.Layout
import MigtdIgvmVerifier.Policy.FmspcScan

/-!
# The verification pipeline of `main`

`main` of `migtd-igvm-verifier` runs its stages in order and stops at the first that fails: it
reads the CFV size from the build configuration and the IGVM file, extracts the configuration
volume, takes the policy and its issuer chain out of the volume by their GUIDs, saves them when
asked, deserializes the policy and verifies it against that chain, converts the root CA of its
collateral to DER, lists the FMSPCs of the policy text, and looks up the FMSPC asked for. The file
system, the JSON decoder, the IGVM and firmware-volume parsers, the policy library and the
certificate conversion belong to other crates and are the fields of `Collaborators`. Each call
into them returns an `Outcome`: its value, its error, or a panic inside the crate. Printing is
left out. A run is `Traced`: how it ends, and the files it has written on the way. A write counts
once `fs::write` has returned; what a write that fails part-way leaves on disk is left out.

Two results hold of every run. The FMSPC scan of step 7 always runs to its end without panicking
(`FmspcScan.scanFmspcs_eq_foldl`), and the listing takes its result with that proof rather than a
default, so the listing decides nothing: whether the collateral has platforms and whatever
`from_utf8` makes of the policy, `main` ends the same way and writes the same files
(`verifierMain_listing`). And a build with overflow checks and one without write the same files
and end the same way, up to the message of a panic (`verifierMain_sameUpToPanic`): the extraction
is the only stage where the two builds differ.
-/

namespace MigtdIgvmVerifier.Policy.Pipeline

open Rust Igvm Cfv.FvHeader Cfv.Extract Config.Layout FmspcScan

/-! ## The GUIDs of the policy files -/

/-- An EFI GUID, as its 16 bytes in memory. -/
structure Guid where
  bytes : List UInt8
  length_eq : bytes.length = 16
  deriving DecidableEq

/-- `Guid::from_fields`: the first three fields in native byte order, which is little-endian on
the x86-64 hosts the tool runs on, then the two clock-sequence bytes and the node. -/
def Guid.fromFields (timeLow : UInt32) (timeMid timeHiAndVersion : UInt16)
    (clkSeqHiAndReserved clkSeqLow : UInt8) (node : { node : List UInt8 // node.length = 6 }) :
    Guid :=
  ⟨toLeBytes timeLow.toNat 4 ++ toLeBytes timeMid.toNat 2 ++ toLeBytes timeHiAndVersion.toNat 2 ++
    [clkSeqHiAndReserved, clkSeqLow] ++ node.1, by simp [node.2]⟩

/-- `MIGTD_POLICY_FFS_GUID`. -/
def migtdPolicyFfsGuid : Guid :=
  Guid.fromFields 0x0BE92DC3 0x6221 0x4C98 0x87 0xC1 ⟨[0x8E, 0xEF, 0xFD, 0x70, 0xDE, 0x5A], rfl⟩

/-- `MIGTD_POLICY_ISSUER_CHAIN_FFS_GUID`. -/
def migtdPolicyIssuerChainFfsGuid : Guid :=
  Guid.fromFields 0x3F2FB27A 0x9596 0x431C 0xA6 0x8D ⟨[0xD3, 0xEA, 0xB3, 0x9F, 0x8A, 0xEB], rfl⟩

/-! ## The stages -/

/-- The calls the verifier tools make into the file system and into crates outside this
repository, each of which may return an error or panic. -/
structure Collaborators (RawPolicy VerifiedPolicy : Type) where
  /-- `fs::read_to_string(path)`. -/
  readToString : String → Outcome String
  /-- `serde_json::from_str` at `ImageLayout`. -/
  imageLayoutFromStr : String → Outcome ImageLayout
  /-- `serde_json::from_str` at `Metadata`. -/
  metadataFromStr : String → Outcome Metadata
  /-- `fs::read(path)`. -/
  read : String → Outcome (List UInt8)
  /-- `IgvmFile::new_from_binary(contents, None)`, its error as `{:?}` prints it. -/
  newFromBinary : List UInt8 → Outcome IgvmFile
  /-- `fv::get_file_from_fv(cfv_data, FV_FILETYPE_RAW, guid)`, which returns an `Option`. -/
  getFileFromFv : List UInt8 → Guid → Outcome (Option (List UInt8))
  /-- `fs::write(path, contents)`. -/
  writeFile : String → List UInt8 → Outcome Unit
  /-- `RawPolicyData::deserialize_from_json`, its error as `{:?}` prints it. -/
  deserializeFromJson : List UInt8 → Outcome RawPolicy
  /-- `raw_policy.verify(issuer_chain, None, None)`, its error as `{:?}` prints it. -/
  verify : RawPolicy → List UInt8 → Outcome VerifiedPolicy
  /-- `verified_policy.get_collaterals().root_ca`, a field read. -/
  rootCa : VerifiedPolicy → String
  /-- `crypto::pem_cert_to_der(root_ca.as_bytes())`. -/
  pemCertToDer : String → Outcome (List UInt8)
  /-- `collaterals.platforms.is_empty()`, on a field of the collateral. -/
  platformsIsEmpty : VerifiedPolicy → Bool
  /-- `std::str::from_utf8(&policy_data)`, read only through `if let Ok(json_str)`. -/
  fromUtf8 : List UInt8 → Option RustStr
  /-- `collaterals.get_tcb_with_fmspc(&fmspc).is_some()`. -/
  hasTcbWithFmspc : VerifiedPolicy → String → Outcome Bool
  /-- `collaterals.contains_key(&fmspc)`, the lookup of `migtd-policy-verifier`. -/
  containsKey : VerifiedPolicy → String → Outcome Bool

/-- `Args`, with the defaults `clap` gives the options left out. -/
structure Args where
  igvm : String
  imageLayout : String := "config/image_layout.json"
  metadata : String := "config/metadata.json"
  savePolicy : Option String := none
  saveChain : Option String := none
  fmspc : Option String := none

/-- A file `main` has written: `fs::write` returned. -/
inductive Effect where
  | writeFile (path : String) (contents : List UInt8)
  deriving DecidableEq

/-- How `main` ends when it reports no error. -/
inductive Exit where
  /-- `Ok(())`: the process exits with status 0. -/
  | passed
  /-- `std::process::exit(2)`: the FMSPC asked for has no TCB in the collateral. -/
  | fmspcNotFound
  deriving DecidableEq, Repr

/-- A step of `main`: how it ends, and the files it wrote, which stay written when a later step
fails. -/
def Traced (α : Type) : Type := Outcome α × List Effect

namespace Traced

variable {α β : Type}

/-- `?` between two steps: the second runs only when the first returns. -/
def bind (x : Traced α) (next : α → Traced β) : Traced β :=
  match x.1 with
  | .ok a => ((next a).1, x.2 ++ (next a).2)
  | .error message => (.error message, x.2)
  | .panic message => (.panic message, x.2)

instance : Monad Traced where
  pure a := (.ok a, [])
  bind := bind

/-- A step that writes no file. -/
def lift (x : Outcome α) : Traced α := (x, [])

end Traced

variable {RawPolicy VerifiedPolicy : Type} (overflowChecks : Bool)

/-- `extract_file_from_cfv(cfv_data, guid)`. -/
def extractFileFromCfv (getFileFromFv : List UInt8 → Guid → Outcome (Option (List UInt8)))
    (cfvData : List UInt8) (guid : Guid) : Outcome (List UInt8) := do
  match ← getFileFromFv cfvData guid with
  | some fileData => .ok fileData
  | none => .error "Unable to find file with GUID in CFV"

/-- `if let Some(path) = path { fs::write(path, contents)?; }`: the file counts as written once the
write has returned, and an error or a panic in it ends the step with nothing written. -/
def saveFile (writeFile : String → List UInt8 → Outcome Unit) (path : Option String)
    (contents : List UInt8) : Traced Unit :=
  match path with
  | none => pure ()
  | some path =>
    match writeFile path contents with
    | .ok () => (.ok (), [.writeFile path contents])
    | result => (result, [])

/-- Step 7: when the collateral has platforms and the policy is UTF-8, the FMSPC scan, whose
result is only printed. The scan never runs out of fuel (`isSome_scanFmspcs`), and its result is
taken with that proof. -/
def listFmspcs (c : Collaborators RawPolicy VerifiedPolicy) (verifiedPolicy : VerifiedPolicy)
    (policyData : List UInt8) : Outcome (List (List Char)) :=
  if c.platformsIsEmpty verifiedPolicy then .ok []
  else
    match c.fromUtf8 policyData with
    | none => .ok []
    | some jsonStr => (scanFmspcs overflowChecks jsonStr).get (isSome_scanFmspcs _ jsonStr)

/-- The check of an FMSPC asked for, with the collateral lookup `hasFmspc` of the tool: the run
passes unless the lookup finds nothing, when the process exits with status 2. -/
def fmspcVerdict (hasFmspc : String → Outcome Bool) : Option String → Outcome Exit
  | none => .ok .passed
  | some fmspc => do
    let found ← hasFmspc fmspc
    pure (if found then .passed else .fmspcNotFound)

/-- Steps 1 and 2 of `main`: the CFV size from the build configuration, and the IGVM file. -/
def loadInputs (c : Collaborators RawPolicy VerifiedPolicy) (args : Args) :
    Outcome (UInt64 × List UInt8) := do
  let imageLayoutJson ← (c.readToString args.imageLayout).context
    ("Failed to read image_layout.json: " ++ args.imageLayout)
  let imageLayout ← (c.imageLayoutFromStr imageLayoutJson).context
    "Failed to parse image_layout.json"
  let metadataJson ← (c.readToString args.metadata).context
    ("Failed to read metadata.json: " ++ args.metadata)
  let metadata ← (c.metadataFromStr metadataJson).context "Failed to parse metadata.json"
  let (cfvSize, _) ← loadCfvConfig imageLayout metadata
  let igvmContents ← (c.read args.igvm).context ("Failed to read IGVM file: " ++ args.igvm)
  pure (cfvSize, igvmContents)

/-- Step 3 of `main`: the configuration volume of the IGVM file. `extract_cfv_from_igvm` calls the
igvm parser on its first line, so a panic there ends the step; otherwise the extraction goes on
from what the parser returned, as `extractCfvFromIgvm` takes it. -/
def loadCfv (c : Collaborators RawPolicy VerifiedPolicy) (args : Args) : Outcome ByteVec := do
  let (cfvSize, igvmContents) ← loadInputs c args
  match c.newFromBinary igvmContents with
  | .ok igvm => extractCfvFromIgvm overflowChecks (fun _ => .ok igvm) igvmContents cfvSize
  | .error e => extractCfvFromIgvm overflowChecks (fun _ => .error e) igvmContents cfvSize
  | .panic message => .panic message

/-- Steps 4 and 5 of `main`: the policy and its issuer chain out of the volume, each saved when
asked. -/
def extractPolicyFiles (c : Collaborators RawPolicy VerifiedPolicy) (args : Args)
    (cfvData : ByteVec) : Traced (List UInt8 × List UInt8) := do
  let policyData ←
    Traced.lift (extractFileFromCfv c.getFileFromFv cfvData.bytes migtdPolicyFfsGuid)
  let issuerChainData ←
    Traced.lift (extractFileFromCfv c.getFileFromFv cfvData.bytes migtdPolicyIssuerChainFfsGuid)
  saveFile c.writeFile args.savePolicy policyData
  saveFile c.writeFile args.saveChain issuerChainData
  pure (policyData, issuerChainData)

/-- Steps 6 to 8 of `main`: the policy deserialized and verified against the chain, its root CA
converted, the FMSPC listing, and the check of the FMSPC asked for. -/
def verifyPolicy (c : Collaborators RawPolicy VerifiedPolicy) (fmspc : Option String)
    (policyData issuerChainData : List UInt8) : Outcome Exit := do
  let rawPolicy ← (c.deserializeFromJson policyData).mapError
    ("Failed to deserialize policy JSON: " ++ ·)
  let verifiedPolicy ← (c.verify rawPolicy issuerChainData).mapError
    ("Policy verification failed: " ++ ·)
  let _ ← (c.pemCertToDer (c.rootCa verifiedPolicy)).context
    "Failed to convert root CA PEM to DER"
  let _ ← listFmspcs overflowChecks c verifiedPolicy policyData
  fmspcVerdict (c.hasTcbWithFmspc verifiedPolicy) fmspc

/-- `main` of `migtd-igvm-verifier`. -/
def verifierMain (c : Collaborators RawPolicy VerifiedPolicy) (args : Args) : Traced Exit := do
  let cfvData ← Traced.lift (loadCfv overflowChecks c args)
  let (policyData, issuerChainData) ← extractPolicyFiles c args cfvData
  Traced.lift (verifyPolicy overflowChecks c args.fmspc policyData issuerChainData)

/-! ## The FMSPC listing decides nothing -/

/-- What the listing returns: what the scan keeps of the values it reads, whatever the build. -/
theorem listFmspcs_eq (c : Collaborators RawPolicy VerifiedPolicy)
    (verifiedPolicy : VerifiedPolicy) (policyData : List UInt8) :
    listFmspcs overflowChecks c verifiedPolicy policyData =
      if c.platformsIsEmpty verifiedPolicy then .ok []
      else
        match c.fromUtf8 policyData with
        | none => .ok []
        | some jsonStr => .ok ((fmspcValues jsonStr.chars).foldl recordFmspc []) := by
  unfold listFmspcs
  split
  · rfl
  · split
    · rfl
    · exact Option.get_of_mem _ (scanFmspcs_eq_foldl overflowChecks _)

/-- The listing of step 7 returns whatever the policy text, so the steps after it run as if it
were not there. -/
theorem listFmspcs_bind {β : Type} (c : Collaborators RawPolicy VerifiedPolicy)
    (verifiedPolicy : VerifiedPolicy) (policyData : List UInt8) (next : Outcome β) :
    (listFmspcs overflowChecks c verifiedPolicy policyData >>= fun _ => next) = next := by
  rw [listFmspcs_eq]
  split
  · rfl
  · split <;> rfl

/-- **The FMSPC listing of step 7 decides nothing**: whether the collateral has platforms and
whatever `from_utf8` makes of the policy, `main` ends the same way and writes the same files. -/
theorem verifierMain_listing (c : Collaborators RawPolicy VerifiedPolicy) (args : Args)
    (platformsIsEmpty : VerifiedPolicy → Bool) (fromUtf8 : List UInt8 → Option RustStr) :
    verifierMain overflowChecks
        { c with platformsIsEmpty := platformsIsEmpty, fromUtf8 := fromUtf8 } args =
      verifierMain overflowChecks c args := by
  simp only [verifierMain, verifyPolicy, listFmspcs_bind]
  rfl

/-! ## With and without overflow checks -/

section OverflowChecks

variable (overflowChecks' : Bool)

theorem verifyPolicy_congr (c : Collaborators RawPolicy VerifiedPolicy) (fmspc : Option String)
    (policyData issuerChainData : List UInt8) :
    verifyPolicy overflowChecks c fmspc policyData issuerChainData =
      verifyPolicy overflowChecks' c fmspc policyData issuerChainData := by
  simp only [verifyPolicy, listFmspcs_eq]

theorem loadCfv_sameUpToPanic (c : Collaborators RawPolicy VerifiedPolicy) (args : Args) :
    Outcome.SameUpToPanic (loadCfv overflowChecks c args) (loadCfv overflowChecks' c args) :=
  (Outcome.SameUpToPanic.refl _).bind fun ⟨_, igvmContents⟩ => by
    dsimp only
    cases c.newFromBinary igvmContents with
    | ok igvm => exact extractCfvFromIgvm_sameUpToPanic overflowChecks overflowChecks' _ _ _
    | error e => exact extractCfvFromIgvm_sameUpToPanic overflowChecks overflowChecks' _ _ _
    | panic message => exact .refl _

theorem verifierMain_of_loadCfv_eq_panic {c : Collaborators RawPolicy VerifiedPolicy} {args : Args}
    {message : String} (h : loadCfv overflowChecks c args = .panic message) :
    verifierMain overflowChecks c args = (.panic message, []) := by
  simp only [verifierMain, h]
  rfl

/-- **Overflow checks change nothing of a run of `main` but the message of a panic**: a build
with them and one without write the same files, and end the same way or both panic. -/
theorem verifierMain_sameUpToPanic (c : Collaborators RawPolicy VerifiedPolicy) (args : Args) :
    (verifierMain overflowChecks c args).2 = (verifierMain overflowChecks' c args).2 ∧
      Outcome.SameUpToPanic (verifierMain overflowChecks c args).1
        (verifierMain overflowChecks' c args).1 := by
  rcases loadCfv_sameUpToPanic overflowChecks overflowChecks' c args with hsame | ⟨hpanic, hpanic'⟩
  · have hrun : verifierMain overflowChecks c args = verifierMain overflowChecks' c args := by
      simp only [verifierMain, hsame, verifyPolicy_congr overflowChecks overflowChecks']
    rw [hrun]
    exact ⟨rfl, .inl rfl⟩
  · obtain ⟨message, hmessage⟩ := Outcome.isPanic_eq_true.mp hpanic
    obtain ⟨message', hmessage'⟩ := Outcome.isPanic_eq_true.mp hpanic'
    rw [verifierMain_of_loadCfv_eq_panic overflowChecks hmessage,
      verifierMain_of_loadCfv_eq_panic overflowChecks' hmessage']
    exact ⟨rfl, .inr ⟨rfl, rfl⟩⟩

end OverflowChecks

end MigtdIgvmVerifier.Policy.Pipeline
