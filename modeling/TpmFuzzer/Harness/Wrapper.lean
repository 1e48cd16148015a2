import TpmFuzzer.Parser.ByteParser

/-!
# The platform behind the harness

`tpm_wrapper.c` drives the TPM through the calls of its platform, which are a `Platform` here: state
transformers on whatever the platform keeps.  `Platform.logged` also writes the calls down, and
`Use.step` says which order of them makes sense: no command reaches a TPM that has no power, no NV
memory or was not started, what reaches it is a frame, and the power goes off only after a shutdown
command and a commit of the NV memory.
-/

namespace Harness

open Bytes Parser

/-- The calls of the platform and of the TPM; `runCommand` gets the request and the size of the
response buffer. -/
structure Platform (P : Type) where
  nvEnable : P → P
  nvNeedsManufacture : P → P × Bool
  /-- `TPM_Manufacture(0)` and what it returns. -/
  manufacture : P → P × Int
  /-- `_plat__NVDisable`, with whether the NV memory is deleted. -/
  nvDisable : Bool → P → P
  signalPowerOn : P → P
  signalReset : P → P
  setNvAvail : P → P
  localitySet : UInt8 → P → P
  runCommand : Bytes → Nat → P → P × Bytes
  hashEnd : P → P
  nvCommit : P → P
  clearNvAvail : P → P
  signalPowerOff : P → P

/-- The response buffers of the programs. -/
def kMaxBuffers : Nat := 1048576

def kDefaultLocality : UInt8 := 0

/-- `TPM2_Startup(CLEAR)`. -/
def kTPM2Startup : Bytes := [0x80, 0x01, 0x00, 0x00, 0x00, 0x0C, 0x00, 0x00, 0x01, 0x44, 0x00, 0x00]

/-- `TPM2_Shutdown(CLEAR)`. -/
def kTPM2Shutdown : Bytes := [0x80, 0x01, 0x00, 0x00, 0x00, 0x0C, 0x00, 0x00,
    0x01, 0x45, 0x00, 0x00]

variable {P : Type} (pl : Platform P)

/-- The NV file stays open for the start; it is deleted when the manufacture fails. -/
def tpmManufactureIfNeeded (s : P) : P :=
  let s := pl.nvEnable s
  let (s, needed) := pl.nvNeedsManufacture s
  if needed then
    let (s, rc) := pl.manufacture s
    if rc ≠ 0 then pl.nvDisable true s else s
  else s

def tpmStartup (s : P) : P :=
  let s := pl.signalPowerOn s
  let s := pl.signalReset s
  let s := pl.nvEnable s
  pl.setNvAvail s

def tpmSendCommand (locality : UInt8) (request : Bytes) (capacity : Nat) (s : P) : P × Bytes :=
  let s := pl.localitySet locality s
  pl.runCommand request capacity s

def sendTPM2StartupCommand (s : P) : P :=
  (tpmSendCommand pl kDefaultLocality kTPM2Startup kMaxBuffers s).1

def sendTPM2ShutdownCommand (s : P) : P :=
  (tpmSendCommand pl kDefaultLocality kTPM2Shutdown kMaxBuffers s).1

/-- The NV file is deleted, so that the next input meets a new TPM. -/
def tpmShutdown (s : P) : P :=
  let s := pl.hashEnd s
  let s := pl.nvCommit s
  let s := pl.clearNvAvail s
  let s := pl.signalPowerOff s
  pl.nvDisable true s

/-! ## The order of the calls -/

/-- A call of the platform or of the TPM. -/
inductive PlatCall
  | nvEnable
  | nvNeedsManufacture
  | manufacture
  | nvDisable (delete : Bool)
  | signalPowerOn
  | signalReset
  | setNvAvail
  | localitySet (locality : UInt8)
  | runCommand (request : Bytes)
  | hashEnd
  | nvCommit
  | clearNvAvail
  | signalPowerOff
  deriving DecidableEq

/-- The platform with the calls that were made on it. -/
def Platform.logged : Platform (P × List PlatCall) where
  nvEnable := fun (s, log) => (pl.nvEnable s, log ++ [.nvEnable])
  nvNeedsManufacture := fun (s, log) =>
    let (s, needed) := pl.nvNeedsManufacture s
    ((s, log ++ [.nvNeedsManufacture]), needed)
  manufacture := fun (s, log) =>
    let (s, rc) := pl.manufacture s
    ((s, log ++ [.manufacture]), rc)
  nvDisable := fun delete (s, log) => (pl.nvDisable delete s, log ++ [.nvDisable delete])
  signalPowerOn := fun (s, log) => (pl.signalPowerOn s, log ++ [.signalPowerOn])
  signalReset := fun (s, log) => (pl.signalReset s, log ++ [.signalReset])
  setNvAvail := fun (s, log) => (pl.setNvAvail s, log ++ [.setNvAvail])
  localitySet := fun locality (s, log) =>
    (pl.localitySet locality s, log ++ [.localitySet locality])
  runCommand := fun request capacity (s, log) =>
    let (s, response) := pl.runCommand request capacity s
    ((s, log ++ [.runCommand request]), response)
  hashEnd := fun (s, log) => (pl.hashEnd s, log ++ [.hashEnd])
  nvCommit := fun (s, log) => (pl.nvCommit s, log ++ [.nvCommit])
  clearNvAvail := fun (s, log) => (pl.clearNvAvail s, log ++ [.clearNvAvail])
  signalPowerOff := fun (s, log) => (pl.signalPowerOff s, log ++ [.signalPowerOff])

/-- What the calls so far make of the TPM. -/
structure Use where
  power : Bool
  nv : Bool
  nvAvail : Bool
  locality : Option UInt8
  /-- The last command since the power came on. -/
  last : Option Bytes
  committed : Bool
  deriving DecidableEq

/-- No power and no NV memory, before the first call and after the last. -/
def Use.off : Use := ⟨false, false, false, none, none, false⟩

/-- Powered, with its NV memory, and started. -/
def Use.running (last : Bytes) : Use := ⟨true, true, true, some kDefaultLocality, some last, false⟩

instance (f : Bytes) : Decidable (IsFrame f) :=
  decidable_of_iff (10 ≤ f.length ∧ f.length < 2 ^ 32 ∧ slice f 2 4 = be 4 f.length)
    ⟨fun h => ⟨h.1, h.2.1, h.2.2⟩, fun h => ⟨h.1, h.2, h.3⟩⟩

/-- Which calls are in order, and what they do. -/
def Use.step (u : Use) : PlatCall → Option Use
  | .nvEnable => some { u with nv := true }
  | .nvNeedsManufacture => if u.nv ∧ ¬ u.power then some u else none
  | .manufacture => if u.nv ∧ ¬ u.power then some u else none
  | .nvDisable _ => if ¬ u.power then some { u with nv := false } else none
  | .signalPowerOn => if ¬ u.power then some ⟨true, u.nv, false, none, none, false⟩ else none
  | .signalReset => if u.power then some ⟨true, u.nv, false, none, none, false⟩ else none
  | .setNvAvail => if u.power ∧ u.nv then some { u with nvAvail := true } else none
  | .localitySet locality => if u.power then some { u with locality := some locality } else none
  | .runCommand request =>
    if u.power ∧ u.nv ∧ u.nvAvail ∧ u.locality = some kDefaultLocality ∧
        (u.last = none → request = kTPM2Startup) ∧ IsFrame request then
      some { u with last := some request, committed := false }
    else none
  | .hashEnd => if u.power then some u else none
  | .nvCommit =>
    if u.power ∧ u.nv ∧ u.last = some kTPM2Shutdown then some { u with committed := true } else none
  | .clearNvAvail => if u.committed then some { u with nvAvail := false } else none
  | .signalPowerOff => if u.committed ∧ ¬ u.nvAvail then some { Use.off with nv := u.nv } else none

theorem Use.step_runCommand {last : Option Bytes} {request : Bytes}
    (hfirst : last = none → request = kTPM2Startup) (hframe : IsFrame request) :
    Use.step ⟨true, true, true, some kDefaultLocality, last, false⟩ (.runCommand request) =
      some (Use.running request) :=
  if_pos ⟨rfl, rfl, rfl, rfl, hfirst, hframe⟩

/-- Every call of the log was in order and they lead to `u`. -/
def InOrder (log : List PlatCall) (u : Use) : Prop := log.foldlM Use.step Use.off = some u

theorem inOrder_nil : InOrder [] Use.off := rfl

/-- The log goes on with a call that is in order. -/
theorem InOrder.call {log : List PlatCall} {u u' : Use} (h : InOrder log u) {c : PlatCall}
    (hc : u.step c = some u') :
    InOrder (log ++ [c]) u' := by
  have hlog : log.foldlM Use.step Use.off = some u := h
  rw [InOrder, List.foldlM_append, hlog]
  show (u.step c).bind pure = some u'
  rw [hc]
  rfl

section

variable {s : P × List PlatCall}

/-- Whether the NV memory stays open depends on the platform. -/
theorem inOrder_manufacture (h : InOrder s.2 Use.off) :
    ∃ nv, InOrder (tpmManufactureIfNeeded pl.logged s).2 { Use.off with nv := nv } := by
  have hneeds : InOrder (s.2 ++ [.nvEnable] ++ [.nvNeedsManufacture]) { Use.off with nv := true } :=
    (h.call rfl).call rfl
  unfold tpmManufactureIfNeeded Platform.logged
  dsimp only
  split
  · have hmade := hneeds.call (c := .manufacture) rfl
    split
    · exact ⟨false, hmade.call rfl⟩
    · exact ⟨true, hmade⟩
  · exact ⟨true, hneeds⟩

/-- Powered and ready for a first command. -/
theorem inOrder_startup {nv : Bool} (h : InOrder s.2 { Use.off with nv := nv }) :
    InOrder (tpmStartup pl.logged s).2 ⟨true, true, true, none, none, false⟩ :=
  (((h.call (c := .signalPowerOn) rfl).call rfl).call rfl).call rfl

theorem isFrame_startup : IsFrame kTPM2Startup := by decide

theorem isFrame_shutdown : IsFrame kTPM2Shutdown := by decide

/-- The first command is the startup. -/
theorem inOrder_sendStartup (h : InOrder s.2 ⟨true, true, true, none, none, false⟩) :
    InOrder (sendTPM2StartupCommand pl.logged s).2 (Use.running kTPM2Startup) := by
  have hlocality := h.call (c := .localitySet kDefaultLocality) rfl
  exact hlocality.call (Use.step_runCommand (fun _ => rfl) isFrame_startup)

/-- A started TPM takes any frame. -/
theorem inOrder_sendCommand {last : Bytes} (h : InOrder s.2 (Use.running last)) {request : Bytes}
    (hframe : IsFrame request) (capacity : Nat) :
    InOrder (tpmSendCommand pl.logged kDefaultLocality request capacity s).1.2
      (Use.running request) := by
  have hlocality := h.call (c := .localitySet kDefaultLocality) rfl
  exact hlocality.call (Use.step_runCommand nofun hframe)

theorem inOrder_sendShutdown {last : Bytes} (h : InOrder s.2 (Use.running last)) :
    InOrder (sendTPM2ShutdownCommand pl.logged s).2 (Use.running kTPM2Shutdown) :=
  inOrder_sendCommand pl h isFrame_shutdown kMaxBuffers

/-- After a shutdown command the TPM can be turned off. -/
theorem inOrder_shutdown (h : InOrder s.2 (Use.running kTPM2Shutdown)) :
    InOrder (tpmShutdown pl.logged s).2 Use.off :=
  ((((h.call (c := .hashEnd) rfl).call (c := .nvCommit) rfl).call (c := .clearNvAvail) rfl).call
    (c := .signalPowerOff) rfl).call (c := .nvDisable true) rfl

end

end Harness
