import Wsupp.Reactive.Outputs
import Wsupp.Safety.ClientTexts
import Wsupp.Safety.Passphrases

/-!
# Sessions of the client

`wifi` without bytes: its requests, and what it prints of what the daemon has said,
as a function of that. However the messages are cut on their way, whatever was in
the buffers they were put together in, and however the list is sorted, the tool does
just this.

`deeds` is that function, command by command. A deed stands for an output of the
tool: a request for any bytes that the daemon reads as that request, a text for the
text itself, a failure for its message. Each command of the source is followed along
its text, with the rule for sending a request and the rule for waiting at the calls.
-/
namespace Wsupp
open Reactive Prog Nlusctl Wire Cntrl

namespace Cntrl.Cmd

/-- The number of a command; no client has one for `other`. -/
def toInt : Cmd → Int
  | .status => CMD_WI_STATUS
  | .device => CMD_WI_DEVICE
  | .scan => CMD_WI_SCAN
  | .neutral => CMD_WI_NEUTRAL
  | .connect => CMD_WI_CONNECT
  | .forget => CMD_WI_FORGET
  | .other => 0

theorem ofInt_toInt (c : Cmd) : ofInt c.toInt = c := by
  cases c with
  | _ => rfl

theorem toInt_range (c : Cmd) : -2 ^ 31 ≤ c.toInt ∧ c.toInt < 2 ^ 31 := by
  cases c with
  | _ => decide

end Cntrl.Cmd

namespace Cntrl.Msg

def puts (msg : Msg) : Puts :=
  msg.ssid.elim .done fun ssid => .bin ATTR_SSID ssid (msg.psk.elim .done fun psk => .bin ATTR_PSK psk .done)

def length (msg : Msg) : ℕ := 8 + msg.puts.attrs.size

end Cntrl.Msg

namespace Client

/-- What the tool does, with messages for bytes: it makes a request, shows something of
what it was told, prints a text, or fails. -/
inductive Deed where
  | requests (msg : Msg)
  | lists (m : Said)
  | shows (showbss : Bool) (m : Said)
  | warns (str : Bytes) (m : Said)
  | prompts
  | fails (text : Bytes) (errno : Int)

/-- A deed seen from outside; a request is one whole message that is read as it was meant. -/
def Deed.Of : Deed → Out → Prop
  | requests msg, .sends b => Framed msg.length b ∧ b.length = msg.length ∧ request b = msg
  | lists m, .prints b => ∃ l, Listed m.scans l ∧ b = listText false l
  | shows showbss m, .prints b => ∃ l, Listed m.scans l ∧
      b = listText showbss l ++ (if l = [] then [] else text "\n") ++ statusText showbss m
  | warns str m, .prints b => b = str ++ text " AP " ++ stationText false m.station ++ text "\n"
  | prompts, .prints b => b = text "Passphrase: "
  | fails text errno, .fails text' errno' => text' = text ∧ errno' = errno
  | _, _ => False

/-- Reports that come before the reply are passed over. -/
def answered (k : Said → List Said → List Deed) : List Said → List Deed
  | [] => [.fails (text "connection lost\n") 0]
  | m :: ms => if m.cmd ≤ 0 then k m ms else answered k ms

def accepted (k : List Said → List Deed) : List Said → List Deed :=
  answered fun m ms => if m.cmd < 0 then [.fails (text "send: %m\n") (-m.cmd)] else k ms

def scanned (k : List Said → List Deed) : List Said → List Deed
  | [] => k []
  | m :: ms =>
      if m.cmd = REP_WI_SCAN_FAIL then [.fails (text "scan failed\n") 0]
      else if m.cmd = REP_WI_SCAN_DONE then k ms
      else if m.cmd = REP_WI_NET_DOWN then [.fails (text "net down\n") 0]
      else scanned k ms

/-- Whether an access point was tried is all that is remembered. -/
def connecting : Bool → List Said → List Deed
  | _, [] => []
  | tried, m :: ms =>
      if m.cmd = REP_WI_NET_DOWN then [.fails (text "network down\n") 0]
      else if m.cmd = REP_WI_CONNECTED then [.warns (text "connected to") m]
      else if m.cmd = REP_WI_DISCONNECT then .warns (text "cannot connect to") m :: connecting true ms
      else if m.cmd = REP_WI_NO_CONNECT then
        [.fails (if tried then text "no more APs in range\n" else text "no suitable APs in range\n") 0]
      else connecting tried ms

/-- `k`, unless there is an argument too many. -/
def alone (args : List Bytes) (k : List Deed) : List Deed :=
  if args ≠ [] then [.fails (text "too many arguments\n") 0] else k

section Deeds
variable (stdin : Bytes) (said : List Said) (args : List Bytes)

def statusDeeds (showbss : Bool) : List Deed :=
  alone args (.requests { cmd := .status } :: answered (fun m _ => [.shows showbss m]) said)

def neutralDeeds : List Deed :=
  alone args (.requests { cmd := .neutral } :: answered (fun m _ =>
    if m.cmd = -EALREADY then [] else if m.cmd < 0 then [.fails (text "%m\n") (-m.cmd)] else []) said)

def scanDeeds : List Deed :=
  alone args (.requests { cmd := .scan } :: accepted (scanned fun said =>
    .requests { cmd := .status } :: answered (fun m _ => [.lists m]) said) said)

def connectDeeds : List Deed := .requests { cmd := .connect } :: accepted (connecting false) said

/-- The network is asked for again, with the key for the passphrase. -/
def passphraseDeeds (ssid : Bytes) (said : List Said) : List Deed :=
  if 256 ≤ stdin.length then [.fails (text "passphrase too long\n") 0]
  else (Pbkdf2.inputPassphrase stdin).elim [.fails (text "empty passphrase rejected\n") 0] fun pass =>
    .requests { cmd := .connect, ssid := some ssid, psk := some ((Pbkdf2.putPsk ssid pass).getD (Bytes.zeros 32)) } ::
      accepted (connecting false) said

def fixedapDeeds : List Bytes → List Deed
  | [] => [.fails (text "need AP ssid\n") 0]
  | ssid :: args => alone args (.requests { cmd := .connect, ssid := some ssid } :: answered (fun m said =>
      if 0 ≤ m.cmd then connecting false said
      else if m.cmd ≠ -ENOKEY then [.fails (text "backend error: %m\n") (-m.cmd)]
      else .prompts :: passphraseDeeds stdin ssid said) said)

def forgetDeeds : List Bytes → List Deed
  | [] => [.fails (text "SSID required\n") 0]
  | ssid :: args => alone args (.requests { cmd := .forget, ssid := some ssid } :: accepted (fun _ => []) said)

def deeds : List Bytes → List Deed
  | [] => statusDeeds said [] false
  | name :: args =>
      if name = text "scan" then scanDeeds said args
      else if name = text "ap" then fixedapDeeds stdin said args
      else if name = text "connect" then if args ≠ [] then fixedapDeeds stdin said args else connectDeeds said
      else if name = text "dc" then neutralDeeds said args
      else if name = text "break" then neutralDeeds said args
      else if name = text "disconnect" then neutralDeeds said args
      else if name = text "forget" then forgetDeeds said args
      else if name = text "bss" then statusDeeds said args true
      else [.fails (text "unknown command " ++ name ++ text "\n") 0]

end Deeds

section Requests
variable {uc : Ucbuf}

theorem message_of_open (F : Puts) (cmd : Int) (h : uc.isOver = false) :
    F.message uc cmd = F.message (ucBufSet uc.mem) cmd := by
  have hhdr : ({ uc with ptr := 0 } : Ucbuf) = ucBufSet uc.mem := by
    rw [ucBufSet, h]
  have hbuf : ({ ucBufSet uc.mem with ptr := 0 } : Ucbuf) = ucBufSet uc.mem := rfl
  rw [Puts.message, Puts.message, ucPutHdr, ucPutHdr, hhdr, hbuf]

theorem length_message (F : Puts) (buf : Bytes) (cmd : Int) (h : 8 ≤ buf.length) (hsmall : F.attrs.Small) :
    (F.message (ucBufSet buf) cmd).mem.length = buf.length := by
  obtain ⟨uc, hhdr, hover, hptr, hlen, -⟩ := ucPutHdr_spec cmd h
  obtain ⟨n, hn⟩ := F.wrote hover (by omega) hsmall
  have hrun := hn.length
  have hfour : (Bytes.ofLe 4 (F.run uc).ptr).length = 4 := Bytes.length_ofLe 4 _
  rw [Puts.message, hhdr, ucPutEnd]
  split
  · omega
  · exact (Bytes.length_poke (by omega)).trans (by omega)

theorem length_putPsk (ssid pass : Bytes) : ((Pbkdf2.putPsk ssid pass).getD (Bytes.zeros 32)).length = 32 := by
  rw [Pbkdf2.putPsk, Pbkdf2.pbkdf2Sha1_eq]
  split
  · rw [Option.getD_some]
    exact Pbkdf2.length_pbkdf2
  · rw [Option.getD_none, Bytes.zeros, List.length_replicate]

/-- Names are at most this long, so that the key fits behind them. -/
def Short (args : List Bytes) : Prop := ∀ a ∈ args, a.length ≤ 2000

/-- A request of the tool: the message it puts together for it has room in its buffer,
and the daemon reads it as this request. -/
structure Puttable (msg : Msg) : Prop where
  ssid : ∀ ssid ∈ msg.ssid, ssid.length ≤ 2000
  psk : ∀ psk ∈ msg.psk, msg.ssid.isSome ∧ psk.length = 32

theorem puttable_plain (cmd : Cntrl.Cmd) : Puttable { cmd := cmd } :=
  ⟨fun ssid h => absurd h (Option.not_mem_none ssid), fun psk h => absurd h (Option.not_mem_none psk)⟩

theorem puttable_named {ssid : Bytes} (hssid : ssid.length ≤ 2000) (cmd : Cntrl.Cmd) :
    Puttable { cmd := cmd, ssid := some ssid } := by
  constructor
  · intro v hv
    exact (Option.mem_some_iff.mp hv) ▸ hssid
  · intro v hv
    cases hv

variable {msg : Msg}

theorem Puttable.fits (h : Puttable msg) : msg.puts.attrs.Small ∧ msg.length ≤ 2048 := by
  obtain ⟨cmd, ssid, psk⟩ := msg
  cases ssid with
  | none => exact ⟨trivial, show 8 ≤ 2048 by omega⟩
  | some ssid =>
      have hssid : ssid.length ≤ 2000 := h.ssid ssid rfl
      have hname : align4 (4 + ssid.length) ≤ 2004 := align4_le (by omega) (by decide)
      cases psk with
      | none =>
          refine ⟨⟨by omega, trivial⟩, ?_⟩
          simp only [Msg.length, Msg.puts, Option.elim, Puts.attrs, Puts.attrsBy, Attrs.size]
          omega
      | some psk =>
          have hpsk : psk.length = 32 := (h.psk psk rfl).2
          refine ⟨⟨by omega, by omega, trivial⟩, ?_⟩
          have hkey : align4 (4 + 32) = 36 := rfl
          simp only [Msg.length, Msg.puts, Option.elim, Puts.attrs, Puts.attrsBy, Attrs.size, hpsk, hkey]
          omega

theorem puts_get (h : Puttable msg) : msg.puts.attrs.get ATTR_SSID = msg.ssid.map .bytes ∧
    msg.puts.attrs.get ATTR_PSK = msg.psk.map .bytes := by
  obtain ⟨cmd, ssid, psk⟩ := msg
  cases ssid with
  | none =>
      cases psk with
      | none => exact ⟨rfl, rfl⟩
      | some psk => cases (h.psk psk rfl).1
  | some ssid =>
      cases psk with
      | none => exact ⟨rfl, rfl⟩
      | some psk => exact ⟨rfl, rfl⟩

/-- A value under a key is read as it was put. -/
theorem payload_get {b : Bytes} {cmd : Int} {F : Attrs} {key : ℕ} {v : Option Bytes} (h : Holds b cmd F)
    (hget : F.get key = v.map .bytes) : (ucGet b key).map (ucPayload b) = v := by
  cases v with
  | none => rw [get_none h hget, Option.map_none]
  | some v =>
      obtain ⟨p, hp, -, hpay⟩ := get_bytes h hget
      rw [hp, Option.map_some, hpay]

/-- The buffer, which is used again and again, holds the request. -/
theorem requests_of (h : Puttable msg) (hroom : uc.mem.length = 2048) (hover : uc.isOver = false) :
    Deed.Of (.requests msg) (.sends (contents (msg.puts.message uc msg.cmd.toInt))) ∧
      (msg.puts.message uc msg.cmd.toInt).mem.length = 2048 ∧ (msg.puts.message uc msg.cmd.toInt).isOver = false := by
  obtain ⟨hsmall, hlength⟩ := h.fits
  obtain ⟨hlow, hhigh⟩ := msg.cmd.toInt_range
  obtain ⟨hssid, hpsk⟩ := puts_get h
  have hfits : 8 + msg.puts.attrs.size ≤ 2048 := hlength
  rw [← hroom] at hfits
  rw [message_of_open _ _ hover]
  obtain ⟨hkept, hholds⟩ := msg.puts.sent_whole hlow hhigh hsmall hfits (by omega)
  refine ⟨?_, ?_, hkept⟩
  · have hsize := hholds.size
    refine ⟨⟨?_, hsize.le, hholds.whole⟩, hsize, ?_⟩
    · rw [Ucmsg.size]
      exact (Nat.le_add_right _ _).trans hsize.ge
    · have hcmd := hholds.cmd
      have hname := payload_get hholds hssid
      have hkey := payload_get hholds hpsk
      unfold Puts.sent at hcmd hname hkey
      rw [request, contents, hcmd, hname, hkey, Cmd.ofInt_toInt]
  · exact (length_message _ _ _ (by omega) hsmall).trans hroom

end Requests

/-- What the socket is going to give is this, of no more than `n` messages. The buffer
may hold the start of it already. -/
structure Session (ifname : Bytes) (n : ℕ) (said : List Said) (ur : Urbuf) (s : List Arrival) : Prop where
  sized : ∀ m ∈ said, m.Sized
  patience : said.length < n
  hears : ∃ bs rest, List.Forall₂ (Said.Written ifname) said bs ∧ Hears ur s bs rest

/-- The message as it has come: its bytes are those that were written, and it has the
sizes by which it can be printed. -/
structure Got (ifname b : Bytes) (m : Said) : Prop where
  written : m.Written ifname b
  sized : m.Sized
  cmd : Ucmsg.cmd b = m.cmd

/-- Nothing goes wrong on this side: the socket connects, writing succeeds, and the
buffer for requests is as large as in the source. -/
structure Able (n : ℕ) (ctx : Top) : Prop where
  socketErr : ctx.socketErr = 0
  connectErr : ctx.connectErr = 0
  writeErrs : ctx.writeErrs = []
  patience : ctx.patience = n
  room : ctx.uc.mem.length = 2048
  isOver : ctx.uc.isOver = false

theorem Able.moved {n : ℕ} {ctx : Top} (h : Able n ctx) (ur : Urbuf) (s : List Arrival) :
    Able n { ctx with ur := ur, stream := s } :=
  { h with }

theorem Able.given {n : ℕ} {ctx : Top} (h : Able n ctx) (args : List Bytes) : Able n { ctx with argv := args } :=
  { h with }

theorem Able.requested {n : ℕ} {ctx : Top} (h : Able n ctx) {msg : Msg} (hput : Puttable msg) :
    Deed.Of (.requests msg) (.sends (contents (msg.puts.message ctx.uc msg.cmd.toInt))) ∧
      Able n { ctx with uc := msg.puts.message ctx.uc msg.cmd.toInt } := by
  obtain ⟨hof, hroom, hover⟩ := requests_of hput h.room h.isOver
  exact ⟨hof, { h with room := hroom, isOver := hover }⟩

abbrev Tells {α : Type} (m : Cmd α) (ctx : Top) (ds : List Deed) : Prop := Performs Deed.Of m ctx ds

section Rules
variable {α β : Type} {ctx : Top} {ifname : Bytes} {n : ℕ} {said : List Said}

theorem tells_fail {f : α → Cmd β} (str : Bytes) (errno : Int) :
    Tells (fail str errno >>= f) ctx [.fails str errno] :=
  performs_assoc (performs_emit ⟨rfl, rfl⟩ performs_exits)

theorem tells_fails (str : Bytes) (errno : Int) : Tells (fail str errno : Cmd α) ctx [.fails str errno] :=
  performs_last (tells_fail str errno)

theorem tells_alone {f : Unit → Cmd α} {ds : List Deed} (h : Tells (f ()) ctx ds) :
    Tells (noOtherOptions >>= f) ctx (alone ctx.argv ds) := by
  apply performs_assoc
  apply performs_read
  exact performs_ite_bind (fun _ => tells_fail _ _) fun _ => performs_value h

section Connect
variable (hable : Able n ctx) {f : Unit → Cmd α} {ds : List Deed}
include hable

theorem connctl_able (miss : Bool) : connctl miss ctx = .ok 0 { ctx with connected := true } [] := by
  unfold connctl
  rw [read_bind, if_neg (not_not.mpr hable.socketErr), if_neg (not_not.mpr hable.connectErr), update_bind]
  rfl

theorem tells_connect (h : Able n { ctx with connected := true } → Tells (f ()) { ctx with connected := true } ds) :
    Tells (connectWictl >>= f) ctx ds :=
  performs_assoc (performs_silent (connctl_able hable false) (performs_value (h { hable with })))

theorem tells_connectCheck
    (h : Able n { ctx with connected := true } → Tells (f ()) { ctx with connected := true } ds) :
    Tells (connectWictlCheck >>= f) ctx ds := by
  apply performs_assoc
  apply performs_silent (connctl_able hable true)
  rw [if_pos (le_refl (0 : Int))]
  exact performs_value (h { hable with })

end Connect

section Receive
variable (hname : NameFits ifname)
include hname

theorem recvReply_cons {m : Said} (h : Session ifname n (m :: said) ctx.ur ctx.stream) : ∃ b ur s,
    recvReply ctx = .ok (some b) { ctx with ur := ur, stream := s } [] ∧ Got ifname b m ∧ Session ifname n said ur s := by
  obtain ⟨bs, rest, hbs, hhears⟩ := h.hears
  obtain ⟨hm, hms⟩ := List.forall_mem_cons.mp h.sized
  have hpatience := h.patience
  rw [List.length_cons] at hpatience
  cases hbs with
  | cons hb hrest =>
      obtain ⟨msg, ur, s, hrecv, hbytes, hfirst⟩ := hhears.first
      refine ⟨_, ur, s, ?_, ⟨hb, hm, (hb.holds hm hname).cmd⟩, ⟨hms, by omega, _, rest, hrest, hfirst⟩⟩
      unfold recvReply
      rw [hrecv, ← hbytes]
      rfl

omit hname in
theorem recvReply_nil (h : Session ifname n [] ctx.ur ctx.stream) : ∃ ur s,
    recvReply ctx = .ok none { ctx with ur := ur, stream := s } [] ∧ Session ifname n [] ur s := by
  obtain ⟨bs, rest, hbs, hhears⟩ := h.hears
  cases hbs
  obtain ⟨ur, s, hrecv, hover⟩ := hhears.over
  refine ⟨ur, s, ?_, ⟨h.sized, h.patience, [], rest, .nil, hover⟩⟩
  unfold recvReply
  rw [hrecv]
  rfl

/-- How the tool goes on, wherever the socket has come to. -/
def Resumes (ifname : Bytes) (n : ℕ) (f : Cmd α) (ctx : Top) (k : List Said → List Deed) : Prop :=
  ∀ ms ur s, Session ifname n ms ur s → Tells f { ctx with ur := ur, stream := s } (k ms)

/-- The induction is on the messages; each that is passed over costs one turn. -/
theorem tells_awaitReply {f : Bytes → Cmd β} {k : Said → List Said → List Deed}
    (hk : ∀ b m, Got ifname b m → Resumes ifname n (f b) ctx (k m)) (h : Session ifname n said ctx.ur ctx.stream)
    {fuel : ℕ} (hfuel : said.length < fuel) : Tells (awaitReply fuel >>= f) ctx (answered k said) := by
  induction said generalizing ctx fuel with
  | nil =>
      obtain ⟨fuel, rfl⟩ : ∃ i, fuel = i + 1 := ⟨fuel - 1, by omega⟩
      obtain ⟨ur, s, hrecv, -⟩ := recvReply_nil h
      exact performs_assoc (performs_silent hrecv (tells_fail _ _))
  | cons m ms ih =>
      rw [List.length_cons] at hfuel
      obtain ⟨fuel, rfl⟩ : ∃ i, fuel = i + 1 := ⟨fuel - 1, by omega⟩
      obtain ⟨b, ur, s, hrecv, hgot, hrest⟩ := recvReply_cons hname h
      apply performs_assoc
      apply performs_silent hrecv
      rw [answered, ← hgot.cmd]
      apply performs_ite_bind
      · exact fun _ => performs_value (hk b m hgot ms ur s hrest)
      · intro _
        refine ih ?_ hrest (by omega)
        exact hk

theorem tells_awaitScan {f : Unit → Cmd β} {k : List Said → List Deed} (hk : Resumes ifname n (f ()) ctx k)
    (h : Session ifname n said ctx.ur ctx.stream) {fuel : ℕ} (hfuel : said.length < fuel) :
    Tells (awaitScan fuel >>= f) ctx (scanned k said) := by
  induction said generalizing ctx fuel with
  | nil =>
      obtain ⟨fuel, rfl⟩ : ∃ i, fuel = i + 1 := ⟨fuel - 1, by omega⟩
      obtain ⟨ur, s, hrecv, hrest⟩ := recvReply_nil h
      exact performs_assoc (performs_silent hrecv (performs_value (hk [] ur s hrest)))
  | cons m ms ih =>
      rw [List.length_cons] at hfuel
      obtain ⟨fuel, rfl⟩ : ∃ i, fuel = i + 1 := ⟨fuel - 1, by omega⟩
      obtain ⟨b, ur, s, hrecv, hgot, hrest⟩ := recvReply_cons hname h
      apply performs_assoc
      apply performs_silent hrecv
      rw [scanned, ← hgot.cmd]
      apply performs_ite_bind
      · exact fun _ => tells_fail _ _
      · intro _
        apply performs_ite_bind
        · exact fun _ => performs_value (hk ms ur s hrest)
        · intro _
          apply performs_ite_bind
          · exact fun _ => tells_fail _ _
          · intro _
            refine ih ?_ hrest (by omega)
            exact hk

theorem tells_awaitNeutral (h : Session ifname n said ctx.ur ctx.stream) {fuel : ℕ} (hfuel : said.length < fuel) :
    Tells (awaitNeutral fuel) ctx [] := by
  induction said generalizing ctx fuel with
  | nil =>
      obtain ⟨fuel, rfl⟩ : ∃ i, fuel = i + 1 := ⟨fuel - 1, by omega⟩
      obtain ⟨ur, s, hrecv, -⟩ := recvReply_nil h
      exact performs_silent hrecv (performs_pure _)
  | cons m ms ih =>
      rw [List.length_cons] at hfuel
      obtain ⟨fuel, rfl⟩ : ∃ i, fuel = i + 1 := ⟨fuel - 1, by omega⟩
      obtain ⟨b, ur, s, hrecv, -, hrest⟩ := recvReply_cons hname h
      apply performs_silent hrecv
      dsimp only
      by_cases hstop : Ucmsg.cmd b = REP_WI_DISCONNECT
      · rw [if_pos hstop]
        exact performs_pure _
      · rw [if_neg hstop]
        by_cases hdown : Ucmsg.cmd b = REP_WI_NET_DOWN
        · rw [if_pos hdown]
          exact performs_pure _
        · rw [if_neg hdown]
          exact ih hrest (by omega)

theorem warns_of {showbss : Bool} (hbss : showbss = false) {b : Bytes} {m : Said} (hgot : Got ifname b m) (str : Bytes) :
    Deed.Of (.warns str m) (.prints (str ++ text " AP " ++ printStation showbss b ++ text "\n")) := by
  rw [hbss, printStation_eq hgot.sized hname hgot.written]
  exact rfl

/-- The invariant is that failures are counted exactly when one was told. -/
theorem tells_waitForConnect (hbss : ctx.showbss = false) (h : Session ifname n said ctx.ur ctx.stream) {fuel : ℕ}
    (hfuel : said.length < fuel) (failures : ℕ) :
    Tells (waitForConnect fuel failures) ctx (connecting (failures ≠ 0) said) := by
  induction said generalizing ctx fuel failures with
  | nil =>
      obtain ⟨fuel, rfl⟩ : ∃ i, fuel = i + 1 := ⟨fuel - 1, by omega⟩
      obtain ⟨ur, s, hrecv, -⟩ := recvReply_nil h
      exact performs_silent hrecv (performs_pure _)
  | cons m ms ih =>
      rw [List.length_cons] at hfuel
      obtain ⟨fuel, rfl⟩ : ∃ i, fuel = i + 1 := ⟨fuel - 1, by omega⟩
      obtain ⟨b, ur, s, hrecv, hgot, hrest⟩ := recvReply_cons hname h
      apply performs_silent hrecv
      rw [connecting, ← hgot.cmd]
      apply performs_ite
      · exact fun _ => tells_fails _ _
      · intro _
        apply performs_ite
        · exact fun _ => performs_read (performs_last (performs_emit (warns_of hname hbss hgot _) (performs_pure ())))
        · intro _
          apply performs_ite
          · intro _
            apply performs_assoc
            apply performs_read
            apply performs_emit (warns_of hname hbss hgot _)
            rw [← decide_eq_true (Nat.succ_ne_zero failures)]
            refine ih ?_ hrest (by omega) (failures + 1)
            exact hbss
          · intro _
            apply performs_ite
            · intro _
              by_cases hzero : failures ≠ 0
              · rw [if_pos hzero, if_pos (decide_eq_true hzero)]
                exact tells_fails _ _
              · rw [if_neg hzero, if_neg (by simpa using hzero)]
                exact tells_fails _ _
            · intro _
              refine ih ?_ hrest (by omega) failures
              exact hbss

end Receive

section Send
variable (hable : Able n ctx) {msg : Msg}
include hable

theorem tells_request {f : Unit → Cmd β} {ds : List Deed} (hput : Puttable msg) {g : Ucbuf → Ucbuf}
    (hg : ∀ uc, g uc = msg.puts.message uc msg.cmd.toInt)
    (h : ∀ uc, Deed.Of (.requests msg) (.sends (contents uc)) → Able n { ctx with uc := uc } →
      Tells (f ()) { ctx with uc := uc } ds) : Tells (put g >>= f) ctx ds := by
  obtain ⟨hof, hdone⟩ := hable.requested hput
  apply performs_update
  rw [hg]
  exact h _ hof hdone

theorem sendCommand_able (hconn : ctx.connected = true) : sendCommand ctx = .ok () ctx [.sends (contents ctx.uc)] := by
  have hwrite : ctx.writeErrs.headD 0 = 0 := by
    rw [hable.writeErrs]
    rfl
  have hsame : { ctx with writeErrs := ctx.writeErrs.tail } = ctx := by
    have hnil := hable.writeErrs
    cases ctx
    cases hnil
    rfl
  unfold sendCommand
  rw [read_bind, if_neg (by rw [hconn]; decide), if_neg (not_not.mpr hwrite), update_bind, hsame]
  rfl

variable (hname : NameFits ifname)
include hname

theorem tells_sendRecvMsg {f : Bytes → Cmd β} {k : Said → List Said → List Deed} (hconn : ctx.connected = true)
    (hof : Deed.Of (.requests msg) (.sends (contents ctx.uc))) (h : Session ifname n said ctx.ur ctx.stream)
    (hk : ∀ b m, Got ifname b m → Resumes ifname n (f b) ctx (k m)) :
    Tells (sendRecvMsg >>= f) ctx (.requests msg :: answered k said) := by
  have hpatience := h.patience
  rw [← hable.patience] at hpatience
  apply performs_assoc
  refine performs_after (sendCommand_able hable hconn) (.cons hof .nil) ?_
  apply performs_assoc
  apply performs_read
  exact tells_awaitReply hname hk h hpatience

theorem tells_sendRecvCmd {f : Int → Cmd β} {k : Said → List Said → List Deed} (hconn : ctx.connected = true)
    (hof : Deed.Of (.requests msg) (.sends (contents ctx.uc))) (h : Session ifname n said ctx.ur ctx.stream)
    (hk : ∀ m : Said, Resumes ifname n (f m.cmd) ctx (k m)) :
    Tells (sendRecvCmd >>= f) ctx (.requests msg :: answered k said) := by
  apply performs_assoc
  apply tells_sendRecvMsg hable hname hconn hof h
  intro b m hgot ms ur s hrest
  apply performs_value
  rw [hgot.cmd]
  exact hk m ms ur s hrest

theorem tells_sendCheck {f : Unit → Cmd β} {k : List Said → List Deed} (hconn : ctx.connected = true)
    (hof : Deed.Of (.requests msg) (.sends (contents ctx.uc))) (h : Session ifname n said ctx.ur ctx.stream)
    (hk : Resumes ifname n (f ()) ctx k) : Tells (sendCheck >>= f) ctx (.requests msg :: accepted k said) := by
  apply performs_assoc
  apply tells_sendRecvCmd hable hname hconn hof h
  intro m ms ur s hrest
  exact performs_ite_bind (fun _ => tells_fail _ _) fun _ => performs_value (hk ms ur s hrest)

end Send

theorem tells_shiftArg {f : Option Bytes → Cmd α} {ds : List Deed}
    (h : Tells (f ctx.argv.head?) { ctx with argv := ctx.argv.tail } ds) : Tells (shiftArg >>= f) ctx ds :=
  performs_assoc (performs_read (performs_assoc (performs_update (performs_value h))))

section Commands
variable {qsort : (ℕ → ℕ → Int) → List ℕ → List ℕ} (hname : NameFits ifname) (hable : Able n ctx)
    (h : Session ifname n said ctx.ur ctx.stream)
include hname hable h

theorem tells_cmdStatus (hsort : Choice.Sorts qsort) :
    Tells (cmdStatus qsort) ctx (statusDeeds said ctx.argv ctx.showbss) := by
  unfold cmdStatus putRequest
  apply tells_request hable (puttable_plain .status) fun uc => rfl
  intro uc hof hable
  apply tells_alone
  apply tells_connectCheck hable
  intro hable
  refine tells_sendRecvMsg hable hname rfl hof h ?_
  intro b m hgot ms ur s hrest
  apply performs_read
  apply performs_last
  obtain ⟨l, hl, hprint⟩ := printScanResults_eq hsort hgot.sized hname hgot.written
  refine performs_emit ⟨l, hl, ?_⟩ (performs_pure _)
  rw [hprint, printStatus_eq hgot.sized hname hgot.written]
  by_cases hnil : l = []
  · simp [hnil]
  · simp [hnil]

theorem tells_cmdNeutral : Tells cmdNeutral ctx (neutralDeeds said ctx.argv) := by
  unfold cmdNeutral putRequest
  apply tells_request hable (puttable_plain .neutral) fun uc => rfl
  intro uc hof hable
  apply tells_alone
  apply tells_connect hable
  intro hable
  refine tells_sendRecvCmd hable hname rfl hof h ?_
  intro m ms ur s hrest
  apply performs_ite (fun _ => performs_pure _)
  intro _
  apply performs_ite (fun _ => tells_fails _ _)
  intro _
  apply performs_read
  exact tells_awaitNeutral hname hrest (hrest.patience.trans_eq hable.patience.symm)

theorem tells_cmdScan (hsort : Choice.Sorts qsort) (hbss : ctx.showbss = false) :
    Tells (cmdScan qsort) ctx (scanDeeds said ctx.argv) := by
  unfold cmdScan putRequest
  apply tells_request hable (puttable_plain .scan) fun uc => rfl
  intro uc hof hable
  apply tells_alone
  apply tells_connect hable
  intro hable
  refine tells_sendCheck hable hname rfl hof h ?_
  intro ms ur s hrest
  apply performs_read
  refine tells_awaitScan hname ?_ hrest (hrest.patience.trans_eq hable.patience.symm)
  intro ms ur s hrest
  apply tells_request (hable.moved ur s) (puttable_plain .status) fun uc => rfl
  intro uc hof hable
  refine tells_sendRecvMsg hable hname rfl hof hrest ?_
  intro b m hgot ms ur s hrest
  apply performs_read
  apply performs_last
  obtain ⟨l, hl, hprint⟩ := printScanResults_eq hsort hgot.sized hname hgot.written
  refine performs_emit ⟨l, hl, ?_⟩ (performs_pure _)
  rw [hprint]
  simp [hbss]

omit h in
theorem resumes_connecting (hbss : ctx.showbss = false) : Resumes ifname n awaitConnection ctx (connecting false) := by
  intro ms ur s hrest
  apply performs_read
  refine tells_waitForConnect hname ?_ hrest (hrest.patience.trans_eq hable.patience.symm) 0
  exact hbss

/-- The key is put behind the name, which is in the buffer already. -/
theorem tells_passphrase (hbss : ctx.showbss = false) (hconn : ctx.connected = true) {ssid : Bytes}
    (hssid : ssid.length ≤ 2000) : Tells (do
      put fun uc => ucPutBin (ucPutHdr uc CMD_WI_CONNECT) ATTR_SSID ssid
      putPskInput ssid
      put ucPutEnd
      sendCheck
      awaitConnection) ctx (.prompts :: passphraseDeeds ctx.stdin ssid said) := by
  apply performs_update
  apply performs_assoc
  apply performs_read
  apply performs_assoc
  refine performs_emit (show Deed.Of .prompts _ from rfl) ?_
  apply performs_ite_bind
  · exact fun _ => tells_fail _ _
  · intro _
    dsimp only
    cases hpass : Pbkdf2.inputPassphrase ctx.stdin with
    | none => exact tells_fail _ _
    | some pass =>
        have hput : Puttable ⟨.connect, some ssid, some ((Pbkdf2.putPsk ssid pass).getD (Bytes.zeros 32))⟩ := by
          constructor
          · intro v hv
            exact (Option.mem_some_iff.mp hv) ▸ hssid
          · intro v hv
            exact ⟨rfl, (Option.mem_some_iff.mp hv) ▸ length_putPsk ssid pass⟩
        obtain ⟨hof, hable⟩ := hable.requested hput
        apply performs_update
        apply performs_update
        exact tells_sendCheck hable hname hconn hof h (resumes_connecting hname hable hbss)

theorem tells_cmdFixedap (hbss : ctx.showbss = false) (hshort : Short ctx.argv) :
    Tells cmdFixedap ctx (fixedapDeeds ctx.stdin said ctx.argv) := by
  apply tells_shiftArg
  cases hargv : ctx.argv with
  | nil => exact tells_fails _ _
  | cons ssid args =>
      have hssid : ssid.length ≤ 2000 := hshort ssid (hargv ▸ List.mem_cons_self)
      dsimp only [List.head?_cons, List.tail_cons]
      apply tells_request (hable.given args) (puttable_named hssid .connect) fun uc => rfl
      intro uc hof hable
      apply tells_alone
      apply tells_connect hable
      intro hable
      refine tells_sendRecvCmd hable hname rfl hof h ?_
      intro m ms ur s hrest
      apply performs_ite
      · intro _
        refine resumes_connecting hname hable ?_ ms ur s hrest
        exact hbss
      · intro _
        apply performs_ite
        · exact fun _ => tells_fails _ _
        · exact fun _ => tells_passphrase hname (hable.moved ur s) hrest hbss rfl hssid

theorem tells_cmdConnect (hbss : ctx.showbss = false) (hshort : Short ctx.argv) :
    Tells cmdConnect ctx
      (if ctx.argv ≠ [] then fixedapDeeds ctx.stdin said ctx.argv else connectDeeds said) := by
  apply performs_read
  by_cases hargs : ctx.argv ≠ []
  · rw [if_pos hargs, if_pos hargs]
    exact tells_cmdFixedap hname hable h hbss hshort
  · rw [if_neg hargs, if_neg hargs]
    unfold putRequest
    apply tells_request hable (puttable_plain .connect) fun uc => rfl
    intro uc hof hable
    have halone : alone ctx.argv (connectDeeds said) = connectDeeds said := if_neg hargs
    rw [← halone]
    apply tells_alone
    apply tells_connect hable
    intro hable
    exact tells_sendCheck hable hname rfl hof h (resumes_connecting hname hable hbss)

theorem tells_cmdForget (hshort : Short ctx.argv) : Tells cmdForget ctx (forgetDeeds said ctx.argv) := by
  apply tells_shiftArg
  cases hargv : ctx.argv with
  | nil => exact tells_fails _ _
  | cons ssid args =>
      have hssid : ssid.length ≤ 2000 := hshort ssid (hargv ▸ List.mem_cons_self)
      dsimp only [List.head?_cons, List.tail_cons]
      apply tells_request (hable.given args) (puttable_named hssid .forget) fun uc => rfl
      intro uc hof hable
      apply tells_alone
      apply tells_connect hable
      intro hable
      apply performs_last
      exact tells_sendCheck hable hname rfl hof h fun ms ur s hrest => performs_pure ()

theorem tells_dispatch (hsort : Choice.Sorts qsort) (hbss : ctx.showbss = false) (hshort : Short ctx.argv) (name : Bytes) :
    Tells (dispatch qsort name) ctx (deeds ctx.stdin said (name :: ctx.argv)) := by
  have hneutral := tells_cmdNeutral hname hable h
  unfold dispatch
  rw [deeds]
  apply performs_ite (fun _ => tells_cmdScan hname hable h hsort hbss)
  intro _
  apply performs_ite (fun _ => tells_cmdFixedap hname hable h hbss hshort)
  intro _
  apply performs_ite (fun _ => tells_cmdConnect hname hable h hbss hshort)
  intro _
  apply performs_ite (fun _ => hneutral)
  intro _
  apply performs_ite (fun _ => hneutral)
  intro _
  apply performs_ite (fun _ => hneutral)
  intro _
  apply performs_ite (fun _ => tells_cmdForget hname hable h hshort)
  intro _
  apply performs_ite
  · exact fun _ => performs_update (tells_cmdStatus hname { hable with } h hsort)
  · exact fun _ => tells_fails _ _

end Commands

theorem tells_main {qsort : (ℕ → ℕ → Int) → List ℕ → List ℕ} (hsort : Choice.Sorts qsort) (hname : NameFits ifname)
    (hable : Able n ctx) (h : Session ifname n said ctx.ur ctx.stream) (hbss : ctx.showbss = false)
    (hshort : Short ctx.argv) : Tells (main qsort) ctx (deeds ctx.stdin said ctx.argv) := by
  apply tells_shiftArg
  cases hargv : ctx.argv with
  | nil =>
      have hdeeds : deeds ctx.stdin said [] = statusDeeds said [] ctx.showbss := by
        rw [hbss]
        rfl
      rw [hdeeds]
      exact tells_cmdStatus hname (hable.given []) h hsort
  | cons name args =>
      rw [hargv] at hshort
      exact tells_dispatch hname (hable.given args) h hsort hbss (fun a ha => hshort a (List.mem_cons_of_mem _ ha)) name

end Rules

end Client
end Wsupp
