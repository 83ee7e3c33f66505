import Wsupp.Safety.ClientSessions
import Wsupp.Safety.Replies
import Wsupp.Safety.StatusDelivery

/-!
# The client and the daemon

What a client does while the daemon goes through a run. The messages are those of
the run; the client hears them up to the first one its buffer has no room for.

Three results stand here. The requests of a connection get their replies one by one
and in order, except that a request may be the end of the daemon. The tool, on
bytes, does exactly what is told for the messages heard. And asked for the status it
shows the daemon as it was when the request reached it, if that status fits the
buffer. The tool is one as it has been started, with arguments of at most 2000 bytes
and a socket and a terminal that work.
-/
namespace Wsupp
open Reactive Prog Nlusctl Wire Cntrl

/-- What the daemon says on connection `cn` in a run. -/
def said (cn : ℕ) (x : System) : List Event → List Said
  | [] => []
  | e :: es => (supplicant.step x e).2.filterMap (Act.told cn (x.before e)) ++ said cn (supplicant.step x e).1 es

section Sized
variable {may : Act → Prop} {s t : Daemon} {k l : List Act} {cn : ℕ}

theorem Change.ifindex (hc : Change may s k t) : t.ifindex = s.ifindex := by
  cases hc with
  | _ => rfl

theorem Daemon.InBounds.reportSized (h : s.InBounds) {r : Report} (hr : r.Of s) : (Said.report r).Sized := by
  have hslen := h.ap.slen
  have hname : (s.ap.ssid.take s.ap.slen).length ≤ SSIDLEN := (List.length_take_le _ _).trans hslen
  cases r with
  | disconnect bssid ssid freq =>
      obtain ⟨rfl, rfl, rfl⟩ := hr
      exact ⟨h.ap.bssid, hname, h.ap.freq⟩
  | connected bssid ssid freq =>
      obtain ⟨rfl, rfl, rfl⟩ := hr
      exact ⟨h.ap.bssid, hname, h.ap.freq⟩
  | _ => trivial

/-- Replies are among the possible ones, and reports are made of what is held. -/
theorem Change.output (hc : Change may s k t) {a : Act} (ha : a ∈ k) :
    (a.repliedTo.isSome = true → may a) ∧ ∀ r conns, a = .report r conns → r.Of s := by
  cases hc with
  | replies b hreply hmay =>
      cases List.mem_singleton.mp ha
      constructor
      · exact fun _ => hmay
      · intro r conns h
        rw [h] at hreply
        cases hreply
  | reports r conns hof =>
      cases List.mem_singleton.mp ha
      constructor
      · intro h
        cases h
      · intro r' conns' h
        cases h
        exact hof
  | plain b hbare =>
      cases List.mem_singleton.mp ha
      cases a with
      | reply c err => cases hbare
      | replyStatus c => cases hbare
      | replyDevice c => cases hbare
      | report r conns => cases hbare
      | _ =>
          constructor
          · intro h
            cases h
          · intro r conns h
            cases h
  | saves | command _ _ _ _ | disconnects _ _ | packet _ _ _ | killDhcp _ | startDhcp _ _ =>
      cases List.mem_singleton.mp ha
      constructor
      · intro h
        cases h
      · intro r conns h
        cases h
  | _ => cases ha

theorem path_reportSized (hp : Path (Change may) s l t) (h : s.InBounds) {r : Report} {conns : List ℕ}
    (hr : Act.report r conns ∈ l) : (Said.report r).Sized := by
  induction hp with
  | refl => cases hr
  | step hc _ ih =>
      obtain hr | hr := List.mem_append.mp hr
      · exact h.reportSized ((hc.output hr).2 r conns rfl)
      · exact ih (h.change hc) hr

theorem path_replies (hp : Path (Change may) s l t) : ∀ a ∈ l, a.repliedTo.isSome = true → may a := by
  induction hp with
  | refl => exact List.forall_mem_nil _
  | step hc _ ih =>
      intro a ha
      obtain ha | ha := List.mem_append.mp ha
      · exact (hc.output ha).1
      · exact ih a ha

theorem told_sized {x : System} (e : Event) (h : x.InBounds) (hindex : -2 ^ 31 ≤ x.ifindex ∧ x.ifindex < 2 ^ 31) :
    ∀ m ∈ (supplicant.step x e).2.filterMap (Act.told cn (x.before e)), m.Sized := by
  intro m hm
  obtain ⟨a, ha, htold⟩ := List.mem_filterMap.mp hm
  cases a with
  | reply c err =>
      obtain ⟨-, hm⟩ := Option.ite_none_right_eq_some.mp htold
      cases hm
      trivial
  | replyStatus c =>
      obtain ⟨-, hm⟩ := Option.ite_none_right_eq_some.mp htold
      cases hm
      have hbefore : (x.before e).InBounds := { h with }
      exact hbefore.sized hindex
  | replyDevice c =>
      obtain ⟨-, hm⟩ := Option.ite_none_right_eq_some.mp htold
      cases hm
      exact hindex
  | report r conns =>
      obtain ⟨-, hm⟩ := Option.ite_none_right_eq_some.mp htold
      cases hm
      exact path_reportSized (x.step_path e) h ha
  | _ => cases htold

/-- Each message of a run has everything in its size. -/
theorem said_sized (cn : ℕ) {x : System} (h : x.InBounds) (hindex : -2 ^ 31 ≤ x.ifindex ∧ x.ifindex < 2 ^ 31)
    (es : List Event) : ∀ m ∈ said cn x es, m.Sized := by
  induction es generalizing x with
  | nil => exact List.forall_mem_nil _
  | cons e es ih =>
      have hpath := x.step_path e
      have hnext : (supplicant.step x e).1.InBounds := hpath.invariant (fun _ _ _ hs hc => hs.change hc) h
      have hsame : (supplicant.step x e).1.ifindex = x.ifindex :=
        hpath.invariant (I := fun s => s.ifindex = x.ifindex) (fun _ _ _ hs hc => hc.ifindex.trans hs) rfl
      rw [← hsame] at hindex
      intro m hm
      obtain hm | hm := List.mem_append.mp hm
      · exact told_sized e h (hsame ▸ hindex) m hm
      · exact ih hnext hindex m hm

end Sized

section Heard
variable {ifname : Bytes} {ms : List Said} {bs : List Bytes}

/-- The messages before the first one that is too long, and the bytes that no message
is made of any more. -/
theorem heard_stream (hname : NameFits ifname) (hms : ∀ m ∈ ms, m.Sized)
    (hbs : List.Forall₂ (Said.Written ifname) ms bs) : ∃ heard rest,
      List.Forall₂ (Said.Written ifname) (ms.takeWhile (Said.Heard ifname)) heard ∧
        (∀ b ∈ heard, Framed Wifi.rxbuf.size b) ∧ bs.flatten = heard.flatten ++ rest ∧ Blocked Wifi.rxbuf.size rest := by
  induction hbs with
  | nil => exact ⟨[], [], .nil, List.forall_mem_nil _, rfl, .inl (by decide)⟩
  | @cons m b ms bs hb _ ih =>
      obtain ⟨hm, hms⟩ := List.forall_mem_cons.mp hms
      have hholds := hb.holds hm hname
      by_cases hheard : m.Heard ifname
      · obtain ⟨heard, rest, hheards, hframed, hflat, hrest⟩ := ih hms
        refine ⟨b :: heard, rest, ?_, List.forall_mem_cons.mpr ⟨hb.framed hm hname hheard, hframed⟩, ?_, hrest⟩
        · rw [List.takeWhile_cons_of_pos (by simpa using hheard)]
          exact .cons hb hheards
        · rw [List.flatten_cons, List.flatten_cons, hflat, List.append_assoc]
      · refine ⟨[], b ++ bs.flatten, ?_, List.forall_mem_nil _, rfl, .inr ?_⟩
        · rw [List.takeWhile_cons_of_neg (by simpa using hheard)]
          exact .nil
        · have hsize := hholds.size
          unfold Said.Heard Said.length at hheard
          rw [Ucmsg.len_append (by rw [Ucmsg.size]; omega), hholds.whole]
          omega

end Heard

namespace Said

def isReply : Said → Bool
  | report _ => false
  | _ => true

end Said

/-- The reply that a request gets from the daemon `s`. -/
def RepliesTo (msg : Msg) (s : Daemon) (m : Said) : Prop :=
  match msg.cmd with
  | .status => m = .status s
  | .device => m = .device s.ifindex
  | _ => ∃ err, err ≤ 0 ∧ m = .reply err

def EventKind.asks (cn : ℕ) : EventKind → Option Msg
  | .connMsg c msg => if c = cn then some msg else none
  | _ => none

/-- The requests on connection `cn` in a run, each with the daemon that it reaches. -/
def asked (cn : ℕ) (x : System) : List Event → List (Msg × Daemon)
  | [] => []
  | e :: es => ((e.kind.asks cn).map fun msg => (msg, x.before e)).toList ++ asked cn (supplicant.step x e).1 es

def replies (cn : ℕ) (x : System) (es : List Event) : List Said := (said cn x es).filter Said.isReply

section Replies
variable {cn : ℕ} {may : Act → Prop} {s t : Daemon} {l : List Act}

def Act.toldReply (cn : ℕ) (s : Daemon) (a : Act) : Option Said := (a.told cn s).filter Said.isReply

theorem toldReply_some {a : Act} {m : Said} (h : a.toldReply cn s = some m) : a.repliedTo = some cn := by
  obtain ⟨htold, hreply⟩ := Option.filter_eq_some_iff.mp h
  cases a with
  | reply c err => exact congrArg some (Option.ite_none_right_eq_some.mp htold).1
  | replyStatus c => exact congrArg some (Option.ite_none_right_eq_some.mp htold).1
  | replyDevice c => exact congrArg some (Option.ite_none_right_eq_some.mp htold).1
  | report r conns =>
      cases (Option.ite_none_right_eq_some.mp htold).2
      cases hreply
  | _ => cases htold

theorem filter_told (l : List Act) :
    (l.filterMap (Act.told cn s)).filter Said.isReply = l.filterMap (Act.toldReply cn s) :=
  List.filter_filterMap

theorem Cntrl.Cmd.replies_to {cmd : Cntrl.Cmd} {c : ℕ} {a : Act} (h : cmd.replies c a) : a.repliedTo = some c := by
  cases cmd with
  | status => exact congrArg Act.repliedTo h
  | device => exact congrArg Act.repliedTo h
  | _ =>
      obtain ⟨err, herr⟩ := h
      exact congrArg Act.repliedTo herr

theorem told_other {x : System} {e : Event} (h : e.kind.asks cn = none) :
    (supplicant.step x e).2.filterMap (Act.toldReply cn s) = [] := by
  apply List.filterMap_eq_nil_iff.mpr
  intro a ha
  by_contra hsome
  obtain ⟨m, hm⟩ := Option.ne_none_iff_exists'.mp hsome
  have hto := toldReply_some hm
  have hmay := path_replies (x.step_path e) a ha (by rw [hto]; rfl)
  cases hk : e.kind with
  | connMsg c msg =>
      rw [hk] at hmay h
      have hc := Option.some.inj ((Cntrl.Cmd.replies_to hmay).symm.trans hto)
      rw [EventKind.asks, if_pos hc] at h
      cases h
  | _ =>
      rw [hk] at hmay
      exact hmay

theorem toldReply_shown (l : List Act) :
    l.filterMap (Act.toldReply cn s) = (clients.outputs l).filterMap (Act.toldReply cn s) := by
  unfold View.outputs
  rw [List.filterMap_filter]
  apply List.filterMap_congr
  intro a _
  cases a with
  | _ => rfl

theorem toldReply_none {a : Act} (h : a.replied = none) : a.toldReply cn s = none := by
  cases a with
  | reply c err => cases h
  | replyStatus c => cases h
  | replyDevice c => cases h
  | report r conns =>
      rw [Act.toldReply, Act.told]
      split
      · rfl
      · rfl
  | _ => rfl

theorem toldReply_first {msg : Msg} {a : Act} {code : Int} (hmay : msg.cmd.replies cn a)
    (hcode : a.replied = some (cn, code)) (hle : code ≤ 0) : ∃ m, a.toldReply cn s = some m ∧ RepliesTo msg s m := by
  unfold RepliesTo
  cases hcmd : msg.cmd with
  | status =>
      rw [hcmd] at hmay
      cases hmay
      exact ⟨_, by rw [Act.toldReply, Act.told, if_pos rfl]; rfl, rfl⟩
  | device =>
      rw [hcmd] at hmay
      cases hmay
      exact ⟨_, by rw [Act.toldReply, Act.told, if_pos rfl]; rfl, rfl⟩
  | _ =>
      rw [hcmd] at hmay
      obtain ⟨err, rfl⟩ := hmay
      cases hcode
      exact ⟨_, by rw [Act.toldReply, Act.told, if_pos rfl]; rfl, code, hle, rfl⟩

/-- A request is answered at once, or it is the end of the daemon. -/
theorem dispatchCmd_survives (msg : Msg) (s : Daemon) : clients.Does (dispatchCmd cn msg) s fun ks o =>
    RepliesFirst cn ks ∨ ks = [] ∧ o = .ends ∧ Crashes s msg := by
  apply View.does_bind (call_called cn msg s)
  · intro ks ret _ h s₁ _
    obtain ⟨hcalled, -⟩ | ⟨-, ho, -⟩ := h
    · cases hcalled with
      | leaves hret =>
          rw [if_neg (not_lt.mpr hret)]
          exact View.does_mono (reply_first hret s₁) fun _ _ h => .inl h
      | replied hret hks =>
          rw [if_pos hret, View.does_pure, List.append_nil]
          exact .inl hks
    · cases ho
  · intro ks h
    obtain ⟨hcalled, -⟩ | ⟨hks, -, hcrash⟩ := h
    · cases hcalled with
      | ended hks => exact .inl hks
    · exact .inr ⟨hks, rfl, hcrash⟩

theorem told_request {x : System} {e : Event} {msg : Msg} (h : e.kind.asks cn = some msg) :
    (∃ m, (supplicant.step x e).2.filterMap (Act.toldReply cn s) = [m] ∧ RepliesTo msg s m) ∨
      (supplicant.step x e).2.filterMap (Act.toldReply cn s) = [] ∧ Crashes (x.before e) msg ∧
        (supplicant.step x e).1.halted = true := by
  obtain ⟨k, env⟩ := e
  cases k with
  | connMsg c msg' =>
      obtain ⟨rfl, hmsg⟩ := Option.ite_none_right_eq_some.mp h
      cases hmsg
      have hdone : RepliesFirst c (clients.outputs (x.step ⟨.connMsg c msg, env⟩).2) ∨
          clients.outputs (x.step ⟨.connMsg c msg, env⟩).2 = [] ∧ Crashes (x.before ⟨.connMsg c msg, env⟩) msg ∧
            (x.step ⟨.connMsg c msg, env⟩).1.halted = true := by
        apply System.step_wp (P := fun y l => RepliesFirst c (clients.outputs l) ∨
          clients.outputs l = [] ∧ Crashes (x.before ⟨.connMsg c msg, env⟩) msg ∧ y.halted = true)
        unfold EventKind.handler
        rw [wp_bind]
        have hsurvives : wp (dispatchCmd c msg) _ _ (x.before ⟨.connMsg c msg, env⟩) := dispatchCmd_survives msg _
        apply wp_mono hsurvives
        · intro ret t l hreplies turn
          rw [List.append_nil]
          obtain hfirst | ⟨-, ho, -⟩ := hreplies
          · exact .inl hfirst
          · cases ho
        · intro t l hreplies turn
          obtain hfirst | ⟨hnone, -, hcrash⟩ := hreplies
          · exact .inl hfirst
          · exact .inr ⟨hnone, hcrash, rfl⟩
      have hmay := path_replies (x.step_path ⟨.connMsg c msg, env⟩)
      rw [toldReply_shown]
      obtain ⟨a, rest, code, hks, hcode, hle, hrest⟩ | ⟨hks, hcrash⟩ := hdone
      · left
        have ha : a ∈ (x.step ⟨.connMsg c msg, env⟩).2 := by
          have hmem : a ∈ clients.outputs (x.step ⟨.connMsg c msg, env⟩).2 := by
            rw [hks]
            exact List.mem_cons_self
          exact (List.mem_filter.mp hmem).1
        have hreply : a.repliedTo.isSome = true := by
          cases a with
          | reply _ _ => rfl
          | replyStatus _ => rfl
          | replyDevice _ => rfl
          | _ => cases hcode
        obtain ⟨m, hm, hanswers⟩ := toldReply_first (s := s) (hmay a ha hreply) hcode hle
        refine ⟨m, ?_, hanswers⟩
        have hquiet : rest.filterMap (Act.toldReply c s) = [] :=
          List.filterMap_eq_nil_iff.mpr fun b hb => toldReply_none (hrest b hb)
        exact (congrArg (List.filterMap (Act.toldReply c s)) hks).trans (by rw [List.filterMap_cons_some hm, hquiet])
      · right
        refine ⟨?_, hcrash⟩
        exact congrArg (List.filterMap (Act.toldReply c s)) hks
  | _ => cases h

theorem replies_cons (cn : ℕ) (x : System) (e : Event) (es : List Event) : replies cn x (e :: es) =
    (supplicant.step x e).2.filterMap (Act.toldReply cn (x.before e)) ++ replies cn (supplicant.step x e).1 es := by
  rw [replies, said, List.filter_append, filter_told]
  rfl

theorem replies_of_unasked {x : System} {es : List Event} (h : asked cn x es = []) : replies cn x es = [] := by
  induction es generalizing x with
  | nil => rfl
  | cons e es ih =>
      rw [asked] at h
      obtain ⟨hask, hasked⟩ := List.append_eq_nil_iff.mp h
      have hnone : e.kind.asks cn = none := by
        cases hk : e.kind.asks cn with
        | none => rfl
        | some msg =>
            rw [hk] at hask
            cases hask
      rw [replies_cons, told_other hnone, ih hasked]
      rfl

end Replies

/-- In every run the requests on a connection get their replies one by one and in order,
whatever else happens in between; only the last one may be left without a reply, when it
is the end of the daemon. -/
theorem replies_in_order (cn : ℕ) {x : System} {es : List Event} (hv : supplicant.Valid x es) :
    ∃ lost : List (Msg × Daemon), ∃ answered, asked cn x es = answered ++ lost ∧
      List.Forall₂ (fun request m => RepliesTo request.1 request.2 m) answered (replies cn x es) ∧
      (lost = [] ∨ ∃ request, lost = [request] ∧ Crashes request.2 request.1) := by
  -- on the run, which a crash ends
  induction es generalizing x with
  | nil => exact ⟨[], [], rfl, .nil, .inl rfl⟩
  | cons e es ih =>
      obtain ⟨lost, answered, hasked, hreplies, hlost⟩ := ih hv.2
      rw [replies_cons, asked]
      cases hask : e.kind.asks cn with
      | none =>
          rw [told_other hask, hasked]
          exact ⟨lost, answered, rfl, hreplies, hlost⟩
      | some msg =>
          obtain ⟨m, hm, hanswers⟩ | ⟨hnone, hcrash, hhalt⟩ := told_request (s := x.before e) (x := x) hask
          · rw [hm, hasked]
            exact ⟨lost, (msg, x.before e) :: answered, rfl, .cons hanswers hreplies, hlost⟩
          · have hend : es = [] := by
              cases es with
              | nil => rfl
              | cons e' es =>
                  have hrun := hv.2.1.1
                  rw [hhalt] at hrun
                  cases hrun
            rw [hnone, hend]
            exact ⟨[(msg, x.before e)], [], rfl, .nil, .inr ⟨_, rfl, hcrash⟩⟩

theorem asking_answered : ∃ lost : List (Msg × Daemon), ∃ answered,
    asked 0 Sample.start (Sample.joining ++ [Sample.asks .status]) = answered ++ lost ∧
      List.Forall₂ (fun request m => RepliesTo request.1 request.2 m) answered
        (replies 0 Sample.start (Sample.joining ++ [Sample.asks .status])) ∧
      (lost = [] ∨ ∃ request, lost = [request] ∧ Crashes request.2 request.1) :=
  replies_in_order 0 (by decide +kernel)

namespace Client

/-- The tool as it is started, with the socket and the terminal working: no address is
asked for yet, the buffer is new, nothing interrupts a read, and no argument is longer
than 2000 bytes. -/
structure Fresh (ctx : Top) : Prop extends Able ctx.patience ctx where
  showbss : ctx.showbss = false
  ur : ctx.ur = Wifi.rxbuf
  steady : Arrival.interrupted ∉ ctx.stream
  short : Short ctx.argv

namespace Sample
open Wsupp.Sample

/-- A client asks for the status after the first scan. -/
def inquiry : List Event :=
  [event (.accept 5), event .turn, notice .newScanResults, found, event (.netlink .done), event .turn]

def ifname : Bytes := text "wlan0"

/-- Messages from buffers with zeros. -/
def messages (ms : List Said) : List Bytes := ms.map fun m => m.bytes ifname (Bytes.zeros m.room)

theorem written_messages (ms : List Said) : List.Forall₂ (Said.Written ifname) ms (messages ms) :=
  List.forall₂_map_right_iff.mpr (List.forall₂_same.mpr fun m _ => ⟨Bytes.zeros m.room, List.length_replicate, rfl⟩)

/-- Everything in one piece. -/
def piece : Bytes → List Arrival
  | [] => []
  | b :: bs => [.bytes b bs]

theorem data_piece (bs : Bytes) : data (piece bs) = bs := by
  cases bs with
  | nil => rfl
  | cons b bs => exact List.append_nil _

theorem steady_piece (bs : Bytes) : Arrival.interrupted ∉ piece bs := by
  cases bs with
  | nil => exact List.not_mem_nil
  | cons b bs =>
      intro h
      cases h with
      | tail _ h => cases h

def tool (argv : List Bytes) (ms : List Said) : Top where
  argv := argv
  uc := { mem := Bytes.zeros 2048 }
  stream := piece (messages ms).flatten
  patience := ms.length + 1

theorem tool_fresh {argv : List Bytes} (h : Short argv) (ms : List Said) : Fresh (tool argv ms) :=
  ⟨⟨rfl, rfl, rfl, rfl, List.length_replicate, rfl⟩, rfl, rfl, steady_piece _, h⟩

theorem tool_patient (argv : List Bytes) (ms : List Said) : (messages ms).length < (tool argv ms).patience :=
  (List.length_map _).trans_lt (Nat.lt_succ_self _)

theorem tool_data (argv : List Bytes) (ms : List Said) : data (tool argv ms).stream = (messages ms).flatten :=
  data_piece _

theorem start_reachable : start.Reachable := ⟨_, [], start_initial, trivial, rfl⟩

theorem ifname_fits : NameFits ifname := show (ifname.takeWhile (· ≠ 0)).length ≤ 16 by decide +kernel

def sorting (cmp : ℕ → ℕ → Int) (l : List ℕ) : List ℕ := l.mergeSort fun p q => cmp p q ≤ 0

end Sample
open Wsupp.Sample Sample

section Runs
variable {qsort : (ℕ → ℕ → Int) → List ℕ → List ℕ} (hsort : Choice.Sorts qsort) {x : System} {cn : ℕ} {es : List Event}
    {ifname : Bytes} {bs : List Bytes} {ctx : Top}
include hsort

theorem tells_said (h : x.InBounds) (hindex : -2 ^ 31 ≤ x.ifindex ∧ x.ifindex < 2 ^ 31) (hname : NameFits ifname)
    (hbs : List.Forall₂ (Said.Written ifname) (said cn x es) bs) (hctx : Fresh ctx) (hpatience : bs.length < ctx.patience)
    (hdata : data ctx.stream = bs.flatten) :
    Tells (main qsort) ctx (deeds ctx.stdin ((said cn x es).takeWhile (Said.Heard ifname)) ctx.argv) := by
  have hsized := said_sized cn h hindex es
  obtain ⟨heard, rest, hheard, hframed, hflat, hrest⟩ := heard_stream hname hsized hbs
  have hsession : Session ifname ctx.patience ((said cn x es).takeWhile (Said.Heard ifname)) ctx.ur ctx.stream := by
    refine ⟨fun m hm => hsized m ((List.takeWhile_sublist _).mem hm), ?_, heard, rest, hheard, ?_⟩
    · have hle := (List.takeWhile_sublist (Said.Heard ifname) (l := said cn x es)).length_le
      have hall := hbs.length_eq
      omega
    · rw [hctx.ur]
      exact ⟨Wifi.rxbuf_fits, rfl, hframed, fun _ => hctx.steady, hdata.trans hflat, hrest⟩
  exact tells_main hsort hname hctx.toAble hsession hctx.showbss hctx.short

end Runs

section Status
variable {cn : ℕ} {x : System} {ifname : Bytes}

theorem said_append (cn : ℕ) (x : System) (es fs : List Event) :
    said cn x (es ++ fs) = said cn x es ++ said cn (supplicant.after x es) fs := by
  induction es generalizing x with
  | nil => rfl
  | cons e es ih =>
      rw [List.cons_append, said, said, ih, List.append_assoc]
      rfl

theorem report_heard {r : Report} (h : (Said.report r).Sized) (hname : NameFits ifname) :
    (Said.report r).Heard ifname := by
  have hroom : (Said.report r).room ≤ 256 := by
    cases r with
    | disconnect bssid ssid freq => exact le_rfl
    | connected bssid ssid freq => exact le_rfl
    | _ => exact show 64 ≤ 256 by omega
  obtain ⟨-, hfits, -⟩ := h.fits hname
  have hsize : Wifi.rxbuf.size = 2048 := rfl
  unfold Said.Heard Said.length
  omega

theorem answered_reports {k : Said → List Said → List Deed} {rs : List Said} (h : ∀ m ∈ rs, 0 < m.cmd) (ms : List Said) :
    answered k (rs ++ ms) = answered k ms := by
  induction rs with
  | nil => rfl
  | cons m rs ih =>
      obtain ⟨hm, hrs⟩ := List.forall_mem_cons.mp h
      rw [List.cons_append, answered, if_neg (not_le.mpr hm)]
      exact ih hrs

theorem reports_of_unasked {es : List Event} (hasked : asked cn x es = []) :
    ∀ m ∈ said cn x es, ∃ r, m = .report r := by
  have hnone : replies cn x es = [] := replies_of_unasked hasked
  intro m hm
  cases m with
  | report r => exact ⟨r, rfl⟩
  | _ => exact absurd rfl (List.filter_eq_nil_iff.mp hnone _ hm)

theorem said_status {e : Event} (he : e.kind = .connMsg cn { cmd := .status }) :
    (supplicant.step x e).2.filterMap (Act.told cn (x.before e)) = [.status (x.before e)] := by
  have hstep : (supplicant.step x e).2 = [.replyStatus cn] := by
    have hrun : e.kind.handler (x.before e) = .ok () { x.before e with
        conns := (x.before e).conns.modify cn fun c => { c with rep := false } } [.replyStatus cn] := by
      rw [he]
      rfl
    exact congrArg Prod.snd (System.step_ok hrun)
  have htold : Act.told cn (x.before e) (.replyStatus cn) = some (.status (x.before e)) := if_pos rfl
  rw [hstep, List.filterMap_cons_some htold]
  rfl

theorem deeds_bss (stdin : Bytes) (ms : List Said) : deeds stdin ms [text "bss"] = statusDeeds ms [] true := by
  have hother : ∀ name ∈ ["scan", "ap", "connect", "dc", "break", "disconnect", "forget"], text "bss" ≠ text name := by
    decide +kernel
  simp only [List.forall_mem_cons, List.not_mem_nil, false_imp_iff, implies_true, and_true] at hother
  obtain ⟨hscan, hap, hconnect, hdc, hbreak, hdisconnect, hforget⟩ := hother
  rw [deeds, if_neg hscan, if_neg hap, if_neg hconnect, if_neg hdc, if_neg hbreak, if_neg hdisconnect, if_neg hforget,
    if_pos rfl]

/-- Asked for the status, with or without addresses, the tool shows the daemon as it is
when the request reaches it, provided that the status fits its buffer. Reports that come
before the reply are passed over. -/
theorem status_agrees {qsort : (ℕ → ℕ → Int) → List ℕ → List ℕ} (hsort : Choice.Sorts qsort) (hx : x.Reachable)
    (hindex : -2 ^ 31 ≤ x.ifindex ∧ x.ifindex < 2 ^ 31) {es fs : List Event} {e : Event} (hasked : asked cn x es = [])
    (he : e.kind = .connMsg cn { cmd := .status }) (hname : NameFits ifname)
    (hheard : (Said.status ((supplicant.after x es).before e)).Heard ifname) {bs : List Bytes}
    (hbs : List.Forall₂ (Said.Written ifname) (said cn x (es ++ e :: fs)) bs) {ctx : Top} (hctx : Fresh ctx)
    (hpatience : bs.length < ctx.patience) (hdata : data ctx.stream = bs.flatten) {showbss : Bool}
    (hargv : ctx.argv = [] ∧ showbss = false ∨ ctx.argv = [text "bss"] ∧ showbss = true) :
    Tells (main qsort) ctx
      [.requests { cmd := .status }, .shows showbss (.status ((supplicant.after x es).before e))] := by
  have hbounds := hx.inBounds
  have hsized := said_sized cn hbounds hindex es
  have hreports := reports_of_unasked hasked
  have htold := tells_said hsort hbounds hindex hname hbs hctx hpatience hdata
  have hsaid : said cn x (es ++ e :: fs) = said cn x es ++ .status ((supplicant.after x es).before e) ::
      said cn (supplicant.step (supplicant.after x es) e).1 fs := by
    rw [said_append, said, said_status he]
    rfl
  have hall : ∀ m ∈ said cn x es, decide (m.Heard ifname) = true := by
    intro m hm
    have hm' := hsized m hm
    obtain ⟨r, rfl⟩ := hreports m hm
    exact decide_eq_true (report_heard hm' hname)
  have hpos : ∀ m ∈ said cn x es, 0 < m.cmd := by
    intro m hm
    obtain ⟨r, rfl⟩ := hreports m hm
    exact (Said.report_range r).1
  have hanswer : answered (fun m _ => [Deed.shows showbss m])
      ((said cn x (es ++ e :: fs)).takeWhile (Said.Heard ifname)) =
      [.shows showbss (.status ((supplicant.after x es).before e))] := by
    rw [hsaid, List.takeWhile_append_of_pos hall, answered_reports hpos,
      List.takeWhile_cons_of_pos (by simpa using hheard)]
    exact if_pos (le_refl (0 : Int))
  have hdeeds : deeds ctx.stdin ((said cn x (es ++ e :: fs)).takeWhile (Said.Heard ifname)) ctx.argv =
      .requests { cmd := .status } :: answered (fun m _ => [Deed.shows showbss m])
        ((said cn x (es ++ e :: fs)).takeWhile (Said.Heard ifname)) := by
    obtain ⟨hargs, rfl⟩ | ⟨hargs, rfl⟩ := hargv
    · rw [hargs]
      rfl
    · rw [hargs, deeds_bss]
      rfl
  rw [hdeeds, hanswer] at htold
  exact htold

end Status

theorem inquiry_agrees : Tells (main sorting) (tool [text "bss"] (said 0 start (inquiry ++ asks .status :: [asks .scan])))
    [.requests { cmd := .status }, .shows true (.status ((supplicant.after start inquiry).before (asks .status)))] :=
  status_agrees Choice.Sorts.mergeSort start_reachable ⟨by decide +kernel, by decide +kernel⟩
    (by decide +kernel) rfl Sample.ifname_fits (by decide +kernel) (written_messages _)
    (tool_fresh (by unfold Short; decide +kernel) _) (tool_patient _ _) (tool_data _ _) (.inr ⟨rfl, rfl⟩)

end Client
end Wsupp
