import Wsupp.NetlinkCommands
import Wsupp.Slots

/-!
# Choice of the access point

Scan, pick the best access point not tried yet, connect, fail, pick another one. The
functions here decide what to do when a connection comes up or is lost, when scan
results are in and when the poll timer fires. The timer, the DHCP client, the PSK
store and the reports to the clients, which they all use, come first.

Everything is a `Handler`, a program over the daemon whose outputs are recorded.
What the system calls would answer is taken from lists the event brings along, so
that a run is determined by its events. The loop of the source that tries one slot
after the other carries a bound, which is large enough.
-/
namespace Wsupp
open Reactive Prog Handler

def TIME_TO_FG_SCAN : ℕ := 1 * 60
def TIME_TO_BG_SCAN : ℕ := 5 * 60

def clrTimer : Handler Unit := update fun s => { s with pollts := 0, timerset := false }

def setTimer (seconds : ℕ) : Handler Unit :=
  update fun s => { s with pollts := seconds, timerset := true }

def killDhcp : Handler Unit := do
  let s ← read
  if s.dhcpid ≤ 0 then pure () else emit (.killDhcp s.dhcpid)

def triggerDhcp : Handler Unit := do
  killDhcp
  let pid ← answerFork
  if pid < 0 then fail "fork: %m\n"
  else do
    emit (.startDhcp pid)
    update fun s => { s with dhcpid := pid }

def gotPskFor (ssid : Bytes) : Handler Bool := do
  let io ← answerLoadIO
  let s ← read
  update fun s => { s with config := (s.config.gotPskFor io ssid).2 }
  pure (s.config.gotPskFor io ssid).1

/-- `load_psk` into `PSK`. -/
def loadPsk (ssid : Bytes) : Handler Int := do
  let io ← answerLoadIO
  let s ← read
  update fun s => { s with
    PSK := (s.config.loadPsk io ssid s.PSK).2.1
    config := (s.config.loadPsk io ssid s.PSK).2.2 }
  pure (s.config.loadPsk io ssid s.PSK).1

/-- `save_psk` of `PSK`. An edit outside the mapped block ends the process. -/
def savePsk (ssid : Bytes) : Handler Unit := do
  let io ← answerLoadIO
  let rio ← answerRemapIO
  let s ← read
  match s.config.savePsk io rio ssid s.PSK with
  | some c => update fun s => { s with config := c }
  | none => do
      emit .exit
      Prog.exit

/-- `send_report` reaches the connections that asked for reports. -/
def sendReport (r : Report) : Handler Unit := do
  let s ← read
  emit (.report r ((List.range s.nconns).filter fun i =>
    (s.conns.getD i {}).rep && decide (0 < (s.conns.getD i {}).fd)))

def reportNetDown : Handler Unit := sendReport .netDown
def reportScanning : Handler Unit := sendReport .scanning
def reportScanDone : Handler Unit := sendReport .scanDone
def reportScanFail : Handler Unit := sendReport .scanFail
def reportNoConnect : Handler Unit := sendReport .noConnect

def reportDisconnect : Handler Unit := do
  let s ← read
  sendReport (.disconnect s.ap.bssid (s.ap.ssid.take s.ap.slen) s.ap.freq)

def reportConnected : Handler Unit := do
  let s ← read
  sendReport (.connected s.ap.bssid (s.ap.ssid.take s.ap.slen) s.ap.freq)

/-- `ies_ccmp_ccmp` and `ies_ccmp_tkip`, which differ in the group cipher. -/
def iesCcmp (group : UInt8) : Bytes :=
  [0x30, 0x14, 0x01, 0x00, 0x00, 0x0F, 0xAC, group, 0x01, 0x00, 0x00, 0x0F, 0xAC, 0x04,
    0x01, 0x00, 0x00, 0x0F, 0xAC, 0x02, 0x00, 0x00]

def iesCcmpCcmp : Bytes := iesCcmp 0x04
def iesCcmpTkip : Bytes := iesCcmp 0x02

def checkWpa (sc : Scan) : Bool :=
  sc.type.rsnPsk && sc.type.rsnPCcmp && (sc.type.rsnGCcmp || sc.type.rsnGTkip)

def connectable (ap : Ap) (sc : Scan) : Bool :=
  sc.flags.good && !sc.flags.tried && (ap.fixed || sc.flags.pass)

def sameSsid (ap : Ap) (sc : Scan) : Bool :=
  sc.slen = ap.slen && sc.ssid.take ap.slen = ap.ssid.take ap.slen

def matchSsid (ap : Ap) (sc : Scan) : Bool := !ap.fixed || sameSsid ap sc

def bandScore (sc : Scan) : Int :=
  if sc.signal < -7500 then 0 else if sc.freq.tdiv 1000 = 5 then 1 else 0

def cmp (a b : Int) : Int := if b < a then 1 else if a < b then -1 else 0

def compare (sc : Scan) : Option Scan → Int
  | none => 1
  | some best =>
      if cmp (bandScore sc) (bandScore best) ≠ 0 then cmp (bandScore sc) (bandScore best)
      else cmp sc.signal best.signal

/-- The loop of `get_best_ap` over the given slots. -/
def bestOf (ap : Ap) (t : ScanTable) : List ℕ → Option ℕ → Option ℕ
  | [], best => best
  | i :: is, best =>
      let sc := t.get i
      bestOf ap t is <|
        if sc.freq = 0 then best
        else if !connectable ap sc then best
        else if !matchSsid ap sc then best
        else if compare sc (best.map t.get) ≤ 0 then best
        else some i

def getBestAp (ap : Ap) (t : ScanTable) : Option ℕ := bestOf ap t (List.range t.nscans) none

def findCurrentAp (ap : Ap) (t : ScanTable) : Option ℕ :=
  t.find fun sc => sc.freq ≠ 0 && sameSsid ap sc && sc.bssid = ap.bssid

def clearApBssid : Handler Unit := update fun s => { s with
  ap := { s.ap with type := {}, success := false, rescans := 0, bssid := Bytes.zeros 6 } }

def clearApSsid : Handler Unit := update fun s => { s with
  ap := { s.ap with slen := 0, freq := 0, fixed := false, ssid := Bytes.zeros SSIDLEN, unsaved := false }
  PSK := Bytes.zeros 32 }

def resetStation : Handler Unit := do
  clearApBssid
  clearApSsid

def modifyFlags (i : ℕ) (f : ScanFlags → ScanFlags) : Handler Unit :=
  update fun s => { s with table := s.table.modify i fun sc => { sc with flags := f sc.flags } }

/-- Without a pairwise CCMP cipher the record is half overwritten when the
function gives up. -/
def setCurrentAp (i : ℕ) : Handler Int := do
  let s ← read
  let sc := s.table.get i
  modifyFlags i fun f => { f with tried := true }
  update fun s => { s with
    ap := { s.ap with success := false, freq := sc.freq, type := sc.type, bssid := sc.bssid } }
  if !sc.type.rsnPCcmp then pure (-1)
  else do
    update fun s => { s with
      ap := { s.ap with
        ies := if sc.type.rsnGTkip then iesCcmpTkip else iesCcmpCcmp
        tkipgroup := sc.type.rsnGTkip } }
    if s.ap.fixed then pure 0
    else do
      update fun s => { s with
        ap := { s.ap with slen := sc.slen, ssid := Bytes.memcpy s.ap.ssid sc.ssid sc.slen } }
      let s ← read
      let ret ← loadPsk (s.ap.ssid.take s.ap.slen)
      if ret ≠ 0 then pure (-1) else pure 0

def resetScanCounters : Handler Unit := update fun s => { s with
  table := s.table.map fun sc =>
    if sc.freq ≠ 0 && matchSsid s.ap sc then { sc with flags := { sc.flags with tried := false } }
    else sc }

def setFixed (ssid : Bytes) : Handler Int := do
  if SSIDLEN < ssid.length then pure (-ENAMETOOLONG)
  else do
    update fun s => { s with
      ap := { s.ap with
        ssid := Bytes.memcpy s.ap.ssid ssid ssid.length, slen := ssid.length, fixed := true } }
    clearApBssid
    resetScanCounters
    pure 0

def setFixedGiven (ssid psk : Bytes) : Handler Int := do
  let ret ← setFixed ssid
  if ret < 0 then pure ret
  else do
    update fun s => { s with PSK := psk.take 32, ap := { s.ap with unsaved := true } }
    pure 0

def setFixedSaved (ssid : Bytes) : Handler Int := do
  let ret ← loadPsk ssid
  if ret < 0 then pure ret
  else do
    let ret ← setFixed ssid
    if ret < 0 then pure ret
    else do
      update fun s => { s with ap := { s.ap with unsaved := false } }
      pure 0

/-- The loop of `connect_to_something`. A slot that fails loses `SF_GOOD`, so
there are at most as many turns as slots and one more. -/
def connectLoop : ℕ → Handler Bool
  | 0 => pure false
  | n + 1 => do
      let s ← read
      match getBestAp s.ap s.table with
      | none => pure false
      | some i => do
          let ret ← setCurrentAp i
          if ret ≠ 0 then do
            modifyFlags i fun f => { f with good := false }
            connectLoop n
          else do
            let ret ← startConnection
            if ret ≠ 0 then do
              modifyFlags i fun f => { f with good := false }
              connectLoop n
            else pure true

def connectToSomething : Handler Bool := connectLoop (NSCANS + 1)

def snapToNeutral : Handler Unit := do
  clearApBssid
  clearApSsid
  update fun s => { s with opermode := .neutral }

def idleThenRescan : Handler Unit := setTimer TIME_TO_FG_SCAN

def reassessWifiSituation : Handler Unit := do
  let s ← read
  if s.opermode = .neutral then pure ()
  else if s.authstate ≠ .idle then pure ()
  else if s.scanstate ≠ .idle then pure ()
  else do
    let started ← connectToSomething
    if started then pure ()
    else do
      reportNoConnect
      let s ← read
      if s.opermode = .oneshot then snapToNeutral else idleThenRescan

/-- Flags of a slot that may be missing. -/
def flagSlot (sc : Option ℕ) (f : ScanFlags → ScanFlags) : Handler Unit :=
  match sc with
  | some i => modifyFlags i f
  | none => pure ()

/-- A PSK given by the user is saved once it has worked. -/
def saveUnsavedPsk (sc : Option ℕ) : Handler Unit := do
  let s ← read
  if s.ap.unsaved then do
    savePsk (s.ap.ssid.take s.ap.slen)
    flagSlot sc fun f => { f with pass := true }
  else pure ()

/-- For negotiations that fail: a disconnect, or another try if there is nothing
to disconnect. -/
def abortConnection : Handler Unit := do
  let ret ← startDisconnect
  if 0 ≤ ret then pure () else reassessWifiSituation

def handleConnect : Handler Unit := do
  let s ← read
  call (.handleConnect s.authstate)
  update fun s => { s with ap := { s.ap with success := true, fixed := true } }
  setTimer TIME_TO_BG_SCAN
  update fun s => { s with
    opermode := if s.opermode = .rescan ∨ s.opermode = .oneshot then .active else s.opermode }
  let s ← read
  let sc := findCurrentAp s.ap s.table
  flagSlot sc fun f => { f with tried := false }
  saveUnsavedPsk sc
  update fun s => { s with ap := { s.ap with unsaved := false } }
  triggerDhcp
  reportConnected

def rescanCurrentAp : Handler Unit := do
  update fun s => { s with ap := { s.ap with success := false }, opermode := .rescan }
  let s ← read
  let _ ← startScan s.ap.freq
  pure ()

def reconnectToCurrentAp : Handler Unit := do
  update fun s => { s with opermode := if s.opermode = .rescan then .active else s.opermode }
  let s ← read
  match findCurrentAp s.ap s.table with
  | some _ => do
      let _ ← startConnection
      pure ()
  | none => reassessWifiSituation

def trySomeOtherAp : Handler Unit := do
  clearApBssid
  let s ← read
  when (!s.ap.fixed) clearApSsid
  reassessWifiSituation

/-- One slot of `check_new_scan_results`. -/
def checkNewScanResult (i : ℕ) : Handler Unit := do
  let s ← read
  let sc := s.table.get i
  if sc.freq = 0 then pure ()
  else if sc.flags.seen then pure ()
  else do
    modifyFlags i fun f => { f with seen := true }
    if checkWpa sc then do
      modifyFlags i fun f => { f with good := true }
      let got ← gotPskFor (sc.ssid.take sc.slen)
      if got then modifyFlags i fun f => { f with pass := true } else pure ()
    else pure ()

def eachSlot (f : ℕ → Handler Unit) : List ℕ → Handler Unit
  | [] => pure ()
  | i :: is => do
      f i
      eachSlot f is

def checkNewScanResults : Handler Unit := do
  let s ← read
  eachSlot checkNewScanResult (List.range s.table.nscans)

def handleDisconnect : Handler Unit := do
  clrTimer
  killDhcp
  update fun s => { s with opermode := if s.opermode = .exitreq then .exit else s.opermode }
  let s ← read
  if s.opermode = .exit then pure ()
  else do
    reportDisconnect
    update fun s => { s with opermode := if s.opermode = .rescan then .active else s.opermode }
    let s ← read
    if s.opermode = .active then
      if s.ap.success then rescanCurrentAp else trySomeOtherAp
    else do
      clearApBssid
      clearApSsid
      reportNoConnect

def handleRfrestored : Handler Unit := do
  let s ← read
  if s.authstate ≠ .netdown then pure ()
  else do
    update fun s => { s with authstate := .idle }
    let s ← read
    if s.opermode = .rescan then rescanCurrentAp else reassessWifiSituation

def routineBgScan : Handler Unit := do
  let _ ← startVoidScan
  setTimer TIME_TO_BG_SCAN

def routineFgScan : Handler Unit := do
  let s ← read
  if !s.ap.fixed then do
    setTimer TIME_TO_FG_SCAN
    let _ ← startVoidScan
    pure ()
  else if s.ap.freq ≠ 0 then do
    setTimer 10
    update fun s => { s with ap := { s.ap with rescans := s.ap.rescans + 1 } }
    let s ← read
    let _ ← startScan (if s.ap.rescans % 6 ≠ 0 then s.ap.freq else -1)
    when (6 * 5 ≤ s.ap.rescans) <| update fun s => { s with
      ap := { s.ap with freq := 0, rescans := 0 } }
  else do
    setTimer TIME_TO_FG_SCAN
    let _ ← startFullScan
    pure ()

end Wsupp
