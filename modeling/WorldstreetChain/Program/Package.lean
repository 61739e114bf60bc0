import WorldstreetChain.Core.Crypto

/-!
# Program packages and their execution (`wsc-program`)

A package is a header, a JSON manifest, a WASM module and the hexadecimal hash of the module.
JSON, WASM validation and the interpreter come from other crates: they are the fields of
`WasmRuntime`. The package format, the checks and their order are the source's.
-/

namespace WorldstreetChain

open Postcard (utf8)
open Std

structure ProgramManifest where
  name : String
  language : String
  compilerVersion : String
  vmVersion : String
  entrypoint : String
  capabilities : List String
  abi : BTreeMap String String
  deriving DecidableEq

structure ProgramPackage where
  manifest : ProgramManifest
  wasm : List UInt8
  codeHash : String
  deriving DecidableEq

inductive ProgramError where
  | packageTooLarge
  | invalidHeader
  | encoding (text : String)
  | hashMismatch
  | wasmValidation (text : String)
  | unsupportedImport (text : String)
  | runtime (text : String)
  | missingEntrypoint (name : String)
  | invalidGas
  deriving DecidableEq

/-- `Display` of a program error. -/
def ProgramError.toText : ProgramError → String
  | packageTooLarge => "package is too large"
  | invalidHeader => "invalid .it magic or version"
  | encoding t => "invalid package encoding: " ++ t
  | hashMismatch => "code hash mismatch"
  | wasmValidation t => "WASM validation failed: " ++ t
  | unsupportedImport t => "unsupported WASM import: " ++ t
  | runtime t => "runtime error: " ++ t
  | missingEntrypoint n => "entrypoint is not exported: " ++ n
  | invalidGas => "gas limit must be positive"

/-- A payload of a WASM module, as far as `validate_wasm` looks at it. -/
inductive Payload where
  | importSection (imports : List (Except String (String × String)))
  | other

/-- The parts of `serde_json`, `wasmparser` and `wasmi` the crate calls. -/
structure WasmRuntime where
  manifestFromSlice : List UInt8 → Except String ProgramManifest
  utf8ErrorText : List UInt8 → String
  parseAll : List UInt8 → List (Except String Payload)
  validateAll : List UInt8 → Except String Unit
  /-- Instantiates a module with the given fuel and calls its entrypoint: the value returned and
      the fuel consumed. -/
  callEntrypoint : List UInt8 → String → U64 → Except ProgramError (BitVec 32 × Option U64)

/-- The interpreter never reports more fuel than it was given. -/
def WasmRuntime.FuelBounded (R : WasmRuntime) : Prop :=
  ∀ wasm entrypoint gas value used,
    R.callEntrypoint wasm entrypoint gas = .ok (value, some used) → used.toNat ≤ gas.toNat

/-! A stand-in for concrete runs knows one package, whose module has no sections. -/

namespace Sample

def manifest : ProgramManifest where
  name := "m"
  language := "rust"
  compilerVersion := "1"
  vmVersion := "1"
  entrypoint := "run"
  capabilities := []
  abi := ∅

def manifestJson : List UInt8 :=
  utf8 ("\x7b\"name\":\"m\",\"language\":\"rust\",\"compiler_version\":\"1\","
    ++ "\"vm_version\":\"1\",\"entrypoint\":\"run\"\x7d")

def wasm : List UInt8 := [0, 0x61, 0x73, 0x6d, 1, 0, 0, 0]

end Sample

/-- The module has a version and an end, and no entrypoint. -/
def WasmRuntime.standIn : WasmRuntime where
  manifestFromSlice bytes :=
    if bytes = Sample.manifestJson then .ok Sample.manifest else .error "expected value"
  utf8ErrorText _ := "invalid utf-8 sequence"
  parseAll bytes :=
    if bytes = Sample.wasm then [.ok .other, .ok .other] else [.error "unexpected end"]
  validateAll bytes := if bytes = Sample.wasm then .ok () else .error "unexpected end"
  callEntrypoint _ entrypoint _ := .error (.missingEntrypoint entrypoint)

theorem WasmRuntime.standIn_fuelBounded : WasmRuntime.standIn.FuelBounded := by
  intro wasm entrypoint gas value used h
  cases h

def itMagic : List UInt8 := utf8 "ITPK"
def maxPackageBytes : Nat := 2 * 1024 * 1024
def maxWasmBytes : Nat := 1 * 1024 * 1024

section Package

variable (C : Crypto) (R : WasmRuntime)

def hashWasm (wasm : List UInt8) : String := hexString (C.sha256 wasm).toList

/-- The imports of one section: the first that cannot be read or is not `env.host_log` fails. -/
def checkImports : List (Except String (String × String)) → Except ProgramError Unit
  | [] => .ok ()
  | .error e :: _ => .error (.wasmValidation e)
  | .ok (module, name) :: rest =>
    if module ≠ "env" ∨ name ≠ "host_log" then
      .error (.unsupportedImport (module ++ "::" ++ name))
    else checkImports rest

def checkPayloads : List (Except String Payload) → Except ProgramError Unit
  | [] => .ok ()
  | .error e :: _ => .error (.wasmValidation e)
  | .ok (.importSection imports) :: rest =>
    match checkImports imports with
    | .error e => .error e
    | .ok () => checkPayloads rest
  | .ok .other :: rest => checkPayloads rest

def validateWasm (wasm : List UInt8) (entrypoint : String) : Except ProgramError Unit :=
  if maxWasmBytes < wasm.length then .error .packageTooLarge
  else
    match checkPayloads (R.parseAll wasm) with
    | .error e => .error e
    | .ok () =>
      match R.validateAll wasm with
      | .error e => .error (.wasmValidation e)
      | .ok () => if entrypoint = "" then .error (.missingEntrypoint entrypoint) else .ok ()

namespace ProgramPackage

def verify (p : ProgramPackage) : Except ProgramError Unit :=
  if p.codeHash ≠ hashWasm C p.wasm then .error .hashMismatch
  else validateWasm R p.wasm p.manifest.entrypoint

/-- `it1` and the first forty characters of the code hash. -/
def programId (p : ProgramPackage) : String :=
  "it1" ++ String.ofList (p.codeHash.toList.take 40)

/-- A little-endian number. -/
def fromLeBytes (bytes : List UInt8) : Nat := bytes.foldr (fun b n => b.toNat + 256 * n) 0

/-- `bytes[i..j]`. -/
def slice (bytes : List UInt8) (i j : Nat) : List UInt8 := (bytes.take j).drop i

def decode (bytes : List UInt8) : Except ProgramError ProgramPackage :=
  if maxPackageBytes < bytes.length ∨ bytes.length < 16 + 64 then .error .invalidHeader
  else if slice bytes 0 4 ≠ itMagic ∨ fromLeBytes (slice bytes 4 6) ≠ 1 then .error .invalidHeader
  else
    let manifestLength := fromLeBytes (slice bytes 6 10)
    let wasmLength := fromLeBytes (slice bytes 10 14)
    -- both lengths are below `2 ^ 32`, so the checked additions of the source cannot fail
    let wasmStart := 16 + manifestLength
    let hashStart := wasmStart + wasmLength
    if hashStart + 64 ≠ bytes.length then .error (.encoding "length mismatch")
    else
      match R.manifestFromSlice (slice bytes 16 wasmStart) with
      | .error e => .error (.encoding e)
      | .ok manifest =>
        let wasm := slice bytes wasmStart hashStart
        let hash := bytes.drop hashStart
        match String.fromUTF8? ⟨hash.toArray⟩ with
        | none => .error (.encoding (R.utf8ErrorText hash))
        | some codeHash =>
          let package : ProgramPackage := { manifest, wasm, codeHash }
          match package.verify C R with
          | .error e => .error e
          | .ok () => .ok package

end ProgramPackage

/-- `i32::to_le_bytes`. -/
def toLeBytes (v : BitVec 32) : List UInt8 :=
  [v.toNat.toUInt8, (v.toNat / 256).toUInt8, (v.toNat / 65536).toUInt8,
    (v.toNat / 16777216).toUInt8]

/-- Runs a package's entrypoint with a gas limit: the returned bytes and the gas used. -/
def execute (package : ProgramPackage) (gasLimit : U64) : Except ProgramError (List UInt8 × U64) :=
  if gasLimit = 0 then .error .invalidGas
  else
    match package.verify C R with
    | .error e => .error e
    | .ok () =>
      match R.callEntrypoint package.wasm package.manifest.entrypoint gasLimit with
      | .error e => .error e
      | .ok (value, used) => .ok (toLeBytes value, used.getD 0)

variable {R}

/-- **An execution uses at most its gas limit.** -/
theorem execute_gas_le (hR : R.FuelBounded) {package : ProgramPackage} {gasLimit used : U64}
    {data : List UInt8} (h : execute C R package gasLimit = .ok (data, used)) :
    used.toNat ≤ gasLimit.toNat := by
  unfold execute at h
  split at h
  · cases h
  · split at h
    · cases h
    · split at h
      · cases h
      · rename_i value used' hcall
        cases h
        cases used' with
        | none => exact Nat.zero_le _
        | some u => exact hR _ _ _ _ _ hcall

end Package

namespace Sample

def package : ProgramPackage where
  manifest := manifest
  wasm := wasm
  codeHash := hashWasm .standIn wasm

/-- The package as bytes, with the given byte in the two places of the header that no check
    reads. -/
def packageBytes (reserved : UInt8) : List UInt8 :=
  itMagic ++ [1, 0] ++ toLeBytes (BitVec.ofNat 32 manifestJson.length)
    ++ toLeBytes (BitVec.ofNat 32 wasm.length) ++ [reserved, reserved] ++ manifestJson ++ wasm
    ++ utf8 package.codeHash

end Sample

end WorldstreetChain
