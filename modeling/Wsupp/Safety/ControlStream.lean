import Mathlib.Data.List.Infix
import Wsupp.Conn

/-!
# The stream of control messages

What arrives on a control connection is cut into messages by their length fields.
The cutting makes progress as long as every length covers its header, and gives back
the messages that were sent as long as no part of a message is left over from one
call of `handle_conn` to the next.

Both conditions are about what arrives: a length below that of a header keeps the
loop from ending, and a message that comes in two wake-ups loses its first part with
the buffer. Each result is exact, over all wake-ups of a connection and all ways in
which the stream can be cut.
-/
namespace Wsupp.Cntrl
open Nlusctl Wire

section Step
variable {n : ℕ} {ur : Urbuf} {s : List Arrival} {b : Bytes}

/-- One turn of the loop: it ends, or it takes the first message of the stream. -/
theorem connLoop_succ (n : ℕ) (hfits : ur.Fits) (hsize : ur.size = rxbufSize)
    (hdata : ur.pending ++ data s = b) :
    (∃ ret ur' s', connLoop (n + 1) ur s = some ([], ret, s') ∧ Stopped ur true s ret ur' s') ∨
    (∃ ur' s', connLoop (n + 1) ur s =
        (connLoop n ur' s').map (fun r => (b.take (Ucmsg.len b) :: r.1, r.2)) ∧
      ur'.Fits ∧ ur'.size = rxbufSize ∧ ur'.pending ++ data s' = b.drop (Ucmsg.len b) ∧
      Ucmsg.size ≤ b.length ∧ Ucmsg.len b ≤ min rxbufSize b.length ∧
      ((ur.pending ++ data s = ur.pending ++ data s' ∧ s' = s) ∨
        ∃ msg, msg ++ data s' = b ∧ Ucmsg.len b ≤ msg.length ∧ ucMsg ur.pending = none ∧ Prompt true s ∧
          Completes ur s msg s')) := by
  rw [connLoop]
  obtain ⟨ret, ur', s', hrecv⟩ : ∃ ret ur' s', ucRecv ur false s = (ret, ur', s') := ⟨_, _, _, rfl⟩
  rw [hrecv]
  rcases ucRecv_cases hfits hrecv with ⟨hret, msg, htook, hkeeps, hhow⟩ | ⟨hret, hstop⟩
  · rw [hsize] at htook
    have hmsg := hkeeps.trans hdata
    obtain ⟨hbytes, hrest, hheader, hlen⟩ := htook.first hmsg
    refine .inr ⟨ur', s', ?_, htook.fits, htook.size, hrest, hheader, hlen, ?_⟩
    · dsimp only
      rw [if_neg (not_lt.mpr hret), htook.handed]
      simp only [hbytes]
    · rcases hhow with ⟨rfl, rfl⟩ | ⟨hnone, hprompt, hcompletes⟩
      · exact .inl ⟨rfl, rfl⟩
      · refine .inr ⟨msg, hmsg, ?_, hnone, hprompt, hcompletes⟩
        rw [← len_of_start htook.header hmsg]
        exact htook.len_le
  · refine .inl ⟨ret, ur', s', ?_, hstop⟩
    dsimp only
    rw [if_pos hret]

end Step

/-- Data that comes without a pause. -/
def Steady (s : List Arrival) : Prop := ∀ a ∈ s, a ≠ .quiet ∧ a ≠ .interrupted

theorem fresh_fits : ({ size := rxbufSize } : Urbuf).Fits := ⟨Nat.zero_le _, by decide⟩

/-- A message as it goes over the wire. -/
structure Message (m : Bytes) : Prop where
  header : Ucmsg.size ≤ m.length
  fits : m.length ≤ rxbufSize
  len : Ucmsg.len m = m.length

/-- With that many bytes to come a message of the stream is over. -/
def Ends (ms : List Bytes) (r : ℕ) : Prop := ∃ rest ∈ ms.tails, rest.flatten.length = r

instance (ms : List Bytes) (r : ℕ) : Decidable (Ends ms r) := inferInstanceAs (Decidable (∃ _ ∈ _, _))

/-- No piece is longer than the room `recv` has for it, which is the buffer less
what is there already of the message the piece goes on with. -/
def Roomy (ms : List Bytes) : List Arrival → Prop
  | [] => True
  | a :: s => (∀ rest ∈ ms.tails, rest.tail.flatten.length < (data (a :: s)).length →
      (data (a :: s)).length ≤ rest.flatten.length →
      rest.flatten.length - (data (a :: s)).length + a.data.length ≤ rxbufSize) ∧ Roomy ms s

/-- A way to cut the stream of messages into results of `recv`, over all wake-ups of the
connection. -/
structure Cut (ms : List Bytes) (s : List Arrival) : Prop where
  data : data s = ms.flatten
  steady : Arrival.interrupted ∉ s
  roomy : Roomy ms s

/-- After a piece that has the end of one message and the start of the next, the
rest of the next is waiting. -/
def Together (ms : List Bytes) : List Arrival → Prop
  | [] => True
  | a :: s => (s.head? = some .quiet → (∃ rest ∈ ms.tails, (data s).length < rest.flatten.length ∧
      rest.flatten.length < (data (a :: s)).length) → Ends ms (data s).length) ∧ Together ms s

section Streams
variable {ms : List Bytes} {s : List Arrival}

theorem flatten_le_of_suffix {l₁ l₂ : List Bytes} (h : l₁ <:+ l₂) :
    l₁.flatten.length ≤ l₂.flatten.length := by
  obtain ⟨l, rfl⟩ := h
  rw [List.flatten_append, List.length_append]
  omega

theorem not_ends_inside {m : Bytes} {rest : List Bytes} (h : m :: rest <:+ ms) {r : ℕ}
    (hlo : rest.flatten.length < r) (hhi : r < (m :: rest).flatten.length) : ¬ Ends ms r := by
  rintro ⟨rest', hmem, hr⟩
  have hrest' := (List.mem_tails _ _).mp hmem
  rcases List.suffix_or_suffix_of_suffix h hrest' with hle | hle
  · have := flatten_le_of_suffix hle
    omega
  · rcases List.suffix_cons_iff.mp hle with rfl | hle
    · omega
    · have := flatten_le_of_suffix hle
      omega

theorem ends_of_suffix {rest : List Bytes} (h : rest <:+ ms) : Ends ms rest.flatten.length :=
  ⟨rest, (List.mem_tails _ _).mpr h, rfl⟩

theorem roomy_of_append {s₁ : List Arrival} (h : Roomy ms (s₁ ++ s)) : Roomy ms s := by
  induction s₁ with
  | nil => exact h
  | cons a s₁ ih => exact ih h.2

theorem together_append {s₁ : List Arrival} (h : ∀ r, (data s).length < r →
    r < (data (s₁ ++ s)).length → ¬ Ends ms r) : Together ms (s₁ ++ s) ↔ Together ms s := by
  induction s₁ with
  | nil => rfl
  | cons a s₁ ih =>
      have hlength : (data (a :: s₁ ++ s)).length = a.data.length + (data s₁).length + (data s).length := by
        simp only [List.cons_append, data_cons, data_append, List.length_append]
        omega
      have hlength' : (data (s₁ ++ s)).length = (data s₁).length + (data s).length := by
        simp only [data_append, List.length_append]
      rw [List.cons_append, Together, ih fun r hlo hhi => h r hlo (by omega)]
      refine and_iff_right fun _ => ?_
      rintro ⟨rest, hrest, hlo, hhi⟩
      exact absurd ⟨rest, hrest, rfl⟩ (h _ (by omega) hhi)

theorem together_of_nil (h : data s = []) : Together ms s := by
  induction s with
  | nil => trivial
  | cons a s ih =>
      have hnil := List.append_eq_nil_iff.mp h
      refine ⟨fun _ hends => ?_, ih hnil.2⟩
      obtain ⟨rest, -, hlo, hhi⟩ := hends
      rw [h] at hhi
      exact absurd hhi (Nat.not_lt_zero _)

/-- Nothing has been read of a message that does not go on at once. -/
def Good (ms : List Bytes) (s : List Arrival) : Prop :=
  (s.head? = some .quiet → Ends ms (data s).length) ∧ Together ms s

theorem incomplete_iff {m p t u : Bytes} (hm : Message m) (h : p ++ t = m ++ u) :
    ucMsg p = none ↔ p.length < m.length := by
  have hheader := hm.header
  rw [ucMsg_none]
  by_cases hp : p.length < Ucmsg.size
  · exact iff_of_true (.inl hp) (by omega)
  · have hlen : Ucmsg.len p = m.length := by
      rw [len_of_start (not_lt.mp hp) h, Ucmsg.len_append hheader, hm.len]
    omega

theorem completes_sync {ur : Urbuf} {m msg : Bytes} {rest : List Bytes} {s' : List Arrival}
    (hm : Message m) (hsuf : m :: rest <:+ ms) (hsize : ur.size = rxbufSize) (hroomy : Roomy ms s)
    (hdata : ur.pending ++ data s = (m :: rest).flatten) (hmsg : msg ++ data s' = (m :: rest).flatten)
    (hlen : m.length ≤ msg.length) (hprompt : Prompt true s) (h : Completes ur s msg s') :
    s'.length < s.length ∧ (Arrival.interrupted ∉ s → Arrival.interrupted ∉ s') ∧ Roomy ms s' ∧
      (Good ms s ↔ Good ms s') := by
  obtain ⟨s₁, q, x, t, s₂, rfl, hq, -, hqdata, rfl, rfl⟩ := h
  have hA := hqdata.trans hdata
  have hqlen : q.length < m.length := (incomplete_iff hm hA).mp hq
  have hlenA : q.length + (data (.bytes x t :: s₂)).length = m.length + rest.flatten.length := by
    rw [← List.length_append, hA, List.flatten_cons, List.length_append]
  have hflat : (m :: rest).flatten.length = m.length + rest.flatten.length := by
    rw [List.flatten_cons, List.length_append]
  have hroom := roomy_of_append hroomy
  have hpiece := hroom.1 (m :: rest) ((List.mem_tails _ _).mpr hsuf) (by rw [List.tail_cons]; omega) (by omega)
  have hpiece' : (Arrival.bytes x t).data.length = t.length + 1 := rfl
  rw [hsize] at hmsg hlen ⊢
  have hdrop : t.drop (rxbufSize - q.length - 1) = [] := List.drop_eq_nil_of_le (by omega)
  rw [hdrop] at hmsg ⊢
  change _ ++ data s₂ = _ at hmsg
  have hs₂ : (data s₂).length ≤ rest.flatten.length := by
    have := congrArg List.length hmsg
    rw [List.length_append] at this
    omega
  have hcons : (data (.bytes x t :: s₂)).length = t.length + 1 + (data s₂).length := by
    rw [data_cons, List.length_append, hpiece']
  have hdatas : (data (s₁ ++ .bytes x t :: s₂)).length ≤ (m :: rest).flatten.length := by
    rw [← hdata, List.length_append]
    omega
  have hinside : ∀ r, (data (.bytes x t :: s₂)).length < r →
      r < (data (s₁ ++ .bytes x t :: s₂)).length → ¬ Ends ms r := fun r hlo hhi =>
    not_ends_inside hsuf (by omega) (by omega)
  refine ⟨?_, ?_, hroom.2, ?_⟩
  · simp only [List.length_append, List.length_cons, unread]
    omega
  · intro hs hmem
    exact hs (List.mem_append_right _ (List.mem_cons_of_mem _ hmem))
  · rw [Good, Good, together_append hinside]
    have hlast : Ends ms (data s₂).length ∨ ∃ rest' ∈ ms.tails, (data s₂).length < rest'.flatten.length ∧
        rest'.flatten.length < (data (.bytes x t :: s₂)).length := by
      have htails := (List.mem_tails _ _).mpr ((List.suffix_cons m rest).trans hsuf)
      rcases hs₂.lt_or_eq with hlt | heq
      · exact .inr ⟨rest, htails, hlt, by omega⟩
      · exact .inl ⟨rest, htails, heq.symm⟩
    constructor
    · intro h
      refine ⟨fun hquiet => ?_, h.2.2⟩
      rcases hlast with hends | hspan
      · exact hends
      · exact h.2.1 hquiet hspan
    · intro h
      exact ⟨fun hquiet => absurd hquiet (hprompt rfl), fun hquiet _ => h.1 hquiet, h.2⟩

/-- What one call of `handle_conn` makes of a stream of messages: it takes them
all, or some of them and is left with nothing, or it loses a part of one. -/
structure Outcome (ms ms' : List Bytes) (s : List Arrival) (done : List Bytes) (ret : Int)
    (s' : List Arrival) : Prop where
  steady : Arrival.interrupted ∉ s'
  roomy : Roomy ms s'
  how : ∃ rest, ms' = done ++ rest ∧
    ((ret = -EBADF ∧ rest = [] ∧ s' = [] ∧ Good ms s) ∨
      (ret = -EAGAIN ∧ s'.length < s.length ∧
        ((data s' = rest.flatten ∧ (Good ms s ↔ Together ms s')) ∨
          ((data s').length < rest.flatten.length ∧ ¬ Good ms s))))

theorem stopped_sync {ur ur' : Urbuf} {ms' : List Bytes} {ret : Int} {s' : List Arrival}
    (hms : ∀ m ∈ ms', Message m) (hsuf : ms' <:+ ms) (hsize : ur.size = rxbufSize)
    (hsteady : Arrival.interrupted ∉ s) (hroomy : Roomy ms s)
    (hdata : ur.pending ++ data s = ms'.flatten) (h : Stopped ur true s ret ur' s') :
    Outcome ms ms' s [] ret s' := by
  have hkeeps := h.keeps.trans hdata
  have hshort {m : Bytes} {rest : List Bytes} (hcons : ms' = m :: rest) : ur'.pending.length < m.length := by
    subst hcons
    exact (incomplete_iff (hms m List.mem_cons_self) hkeeps).mp h.none
  rcases h.cause with ⟨rfl, -, rfl, hpending⟩ | ⟨-, hmem⟩ | ⟨rfl, hret⟩ | ⟨-, hfull⟩
  · refine ⟨fun hmem => hsteady (List.mem_cons_of_mem _ hmem), hroomy.2, ms', rfl, .inr ⟨rfl, ?_, ?_⟩⟩
    · exact Nat.lt_succ_self _
    have htogether : Together ms (.quiet :: s') ↔ Together ms s' :=
      and_iff_right fun _ ⟨_, _, hlo, hhi⟩ => absurd (hlo.trans hhi) (lt_irrefl _)
    by_cases hnil : ur.pending = []
    · rw [hnil, List.nil_append] at hdata
      refine .inl ⟨hdata, ?_⟩
      rw [Good, htogether, hdata]
      exact and_iff_right fun _ => ends_of_suffix hsuf
    · have hpos : 0 < ur.pending.length := List.length_pos_of_ne_nil hnil
      have hlength : ur.pending.length + (data s').length = ms'.flatten.length := by
        rw [← hdata, List.length_append]
        rfl
      refine .inr ⟨by omega, fun hgood => ?_⟩
      cases ms' with
      | nil =>
          rw [List.flatten_nil, List.length_nil] at hlength
          omega
      | cons m rest =>
          have hlt := hshort rfl
          rw [hpending] at hlt
          have hflat : (m :: rest).flatten.length = m.length + rest.flatten.length := by
            rw [List.flatten_cons, List.length_append]
          refine not_ends_inside hsuf ?_ ?_ (hgood.1 rfl)
          · change rest.flatten.length < (data s').length
            omega
          · change (data s').length < (m :: rest).flatten.length
            omega
  · exact absurd hmem hsteady
  · rw [data_nil, List.append_nil] at hkeeps
    cases ms' with
    | nil =>
        have hnil : data s = [] := (List.append_eq_nil_iff.mp hdata).2
        rw [hkeeps] at hret
        refine ⟨by simp, trivial, [], rfl, .inl ⟨hret, rfl, rfl, fun _ => ?_, together_of_nil hnil⟩⟩
        rw [hnil]
        exact ends_of_suffix (List.nil_suffix)
    | cons m rest =>
        have hlt := hshort rfl
        rw [hkeeps, List.flatten_cons, List.length_append] at hlt
        omega
  · have hlength := congrArg List.length hkeeps
    rw [List.length_append, hfull, hsize] at hlength
    cases ms' with
    | nil => exact absurd hlength (by simp [rxbufSize])
    | cons m rest =>
        have hlt := hshort rfl
        have hfits := (hms m List.mem_cons_self).fits
        omega

theorem connLoop_sync {ms' : List Bytes} (hms : ∀ m ∈ ms', Message m) (hsuf : ms' <:+ ms) {n : ℕ}
    (hn : ms'.length < n) {ur : Urbuf} (hfits : ur.Fits) (hsize : ur.size = rxbufSize)
    (hsteady : Arrival.interrupted ∉ s) (hroomy : Roomy ms s)
    (hdata : ur.pending ++ data s = ms'.flatten) :
    ∃ done ret s', connLoop n ur s = some (done, ret, s') ∧ Outcome ms ms' s done ret s' := by
  obtain ⟨n, rfl⟩ := Nat.exists_eq_succ_of_ne_zero (Nat.ne_zero_of_lt hn)
  induction ms' generalizing n ur s with
  | nil =>
      rcases connLoop_succ n hfits hsize hdata with ⟨ret, ur', s', hrun, hstop⟩ | ⟨_, _, _, _, _, _, hheader, -⟩
      · exact ⟨[], ret, s', hrun, stopped_sync hms hsuf hsize hsteady hroomy hdata hstop⟩
      · exact absurd hheader (by decide)
  | cons m rest ih =>
      rcases connLoop_succ n hfits hsize hdata with
        ⟨ret, ur', s', hrun, hstop⟩ | ⟨ur', s₁, hrun, hfits', hsize', hrest, -, -, hhow⟩
      · exact ⟨[], ret, s', hrun, stopped_sync hms hsuf hsize hsteady hroomy hdata hstop⟩
      have hm := hms m List.mem_cons_self
      have hlen : Ucmsg.len (m :: rest).flatten = m.length := by
        rw [List.flatten_cons, Ucmsg.len_append hm.header, hm.len]
      rw [hlen, List.flatten_cons, List.drop_left] at hrest
      rw [hlen, List.flatten_cons, List.take_left] at hrun
      have hsame : s₁.length ≤ s.length ∧ Arrival.interrupted ∉ s₁ ∧ Roomy ms s₁ ∧ (Good ms s ↔ Good ms s₁) := by
        rcases hhow with ⟨-, rfl⟩ | ⟨msg, hmsg, hle, -, hprompt, hcompletes⟩
        · exact ⟨le_rfl, hsteady, hroomy, Iff.rfl⟩
        · rw [hlen] at hle
          obtain ⟨hlt, hs₁, hroomy₁, hgood⟩ :=
            completes_sync hm hsuf hsize hroomy hdata hmsg hle hprompt hcompletes
          exact ⟨hlt.le, hs₁ hsteady, hroomy₁, hgood⟩
      obtain ⟨hle, hs₁, hroomy₁, hgood⟩ := hsame
      obtain ⟨n, rfl⟩ := Nat.exists_eq_succ_of_ne_zero
        (Nat.ne_zero_of_lt (Nat.lt_of_succ_lt_succ hn))
      obtain ⟨done, ret, s', hloop, hsteady', hroomy', rest', hparts, hend⟩ :=
        ih (fun m' hm' => hms m' (List.mem_cons_of_mem _ hm')) ((List.suffix_cons m rest).trans hsuf)
          hfits' hsize' hs₁ hroomy₁ hrest n (Nat.lt_of_succ_lt_succ hn)
      refine ⟨m :: done, ret, s', ?_, hsteady', hroomy', rest', ?_, ?_⟩
      · rw [hrun, hloop]
        rfl
      · rw [hparts, List.cons_append]
      · rw [hgood]
        rcases hend with hdone | ⟨hret, hlt, hlast⟩
        · exact .inl hdone
        · exact .inr ⟨hret, by omega, hlast⟩

theorem connLoop_mono {n : ℕ} {ur : Urbuf} {r : List Bytes × Int × List Arrival}
    (h : connLoop n ur s = some r) : connLoop (n + 1) ur s = some r := by
  induction n generalizing ur s r with
  | zero => cases h
  | succ n ih =>
      rw [connLoop] at h ⊢
      dsimp only at h ⊢
      split at h
      next hret => rw [if_pos hret, h]
      next hret =>
      rw [if_neg hret]
      cases hmsg : (ucRecv ur false s).2.1.msg with
      | none =>
          rw [hmsg] at h
          cases h
      | some msg =>
          rw [hmsg] at h
          obtain ⟨r', hrun, hr⟩ := Option.map_eq_some_iff.mp h
          dsimp only
          rw [ih hrun, Option.map_some, hr]

theorem serve_mono {n : ℕ} {r : List Bytes} (h : serve n s = some r) : serve (n + 1) s = some r := by
  induction n generalizing s r with
  | zero => cases h
  | succ n ih =>
      rw [serve] at h ⊢
      split at h
      next hnil => rw [if_pos hnil, h]
      next hnil =>
      rw [if_neg hnil]
      cases hconn : handleConn (n + 1) (polled s) with
      | none =>
          rw [hconn] at h
          cases h
      | some out =>
          obtain ⟨msgs, ret, s'⟩ := out
          have hconn' : handleConn (n + 1 + 1) (polled s) = some (msgs, ret, s') := connLoop_mono hconn
          rw [hconn']
          rw [hconn] at h
          dsimp only at h ⊢
          split at h
          next hshut => rw [if_pos hshut, h]
          next hshut =>
          rw [if_neg hshut]
          obtain ⟨r', hrun, hr⟩ := Option.map_eq_some_iff.mp h
          rw [ih hrun, Option.map_some, hr]

theorem serve_mono_add {n : ℕ} {r : List Bytes} (h : serve n s = some r) (k : ℕ) :
    serve (n + k) s = some r := by
  induction k with
  | zero => exact h
  | succ k ih => exact serve_mono ih

theorem connLoop_bound {n : ℕ} {ur : Urbuf} (hfits : ur.Fits) (hsize : ur.size = rxbufSize)
    {done : List Bytes} {ret : Int} {s' : List Arrival} (h : connLoop n ur s = some (done, ret, s')) :
    done.flatten.length + (data s').length ≤ ur.pending.length + (data s).length := by
  induction n generalizing ur s done with
  | zero => cases h
  | succ n ih =>
      have hlength : (ur.pending ++ data s).length = ur.pending.length + (data s).length := List.length_append
      rcases connLoop_succ n hfits hsize rfl with
        ⟨ret', ur', s₁, hrun, hstop⟩ | ⟨ur', s₁, hrun, hfits', hsize', hrest, -, hlen, -⟩
      · rw [hrun] at h
        cases h
        have hkeeps := congrArg List.length hstop.keeps
        rw [List.length_append, hlength] at hkeeps
        rw [List.flatten_nil, List.length_nil]
        omega
      · rw [hrun] at h
        obtain ⟨⟨done', r⟩, hloop, hr⟩ := Option.map_eq_some_iff.mp h
        cases hr
        have hle := ih hfits' hsize' hloop
        have hkept := congrArg List.length hrest
        rw [List.length_append, List.length_drop, hlength] at hkept
        dsimp only
        rw [List.flatten_cons, List.length_append, List.length_take, hlength]
        omega

theorem data_polled (s : List Arrival) : data (polled s) = data s := by
  induction s with
  | nil => rfl
  | cons a s ih =>
      cases a with
      | quiet => exact ih
      | bytes x t => rfl
      | interrupted => rfl

theorem serve_bound {n : ℕ} {r : List Bytes} (h : serve n s = some r) :
    r.flatten.length ≤ (data s).length := by
  induction n generalizing s r with
  | zero => cases h
  | succ n ih =>
      rw [serve] at h
      split at h
      next hnil =>
        cases h
        exact Nat.zero_le _
      next hnil =>
      cases hconn : handleConn (n + 1) (polled s) with
      | none =>
          rw [hconn] at h
          cases h
      | some out =>
          obtain ⟨msgs, ret, s'⟩ := out
          have hbound := connLoop_bound fresh_fits rfl hconn
          rw [data_polled] at hbound
          rw [List.length_nil] at hbound
          rw [hconn] at h
          dsimp only at h
          split at h
          next hshut =>
            cases h
            omega
          next hshut =>
          obtain ⟨r', hrun, rfl⟩ := Option.map_eq_some_iff.mp h
          have := ih hrun
          rw [List.flatten_append, List.length_append]
          omega

theorem polled_keeps (ms : List Bytes) (s : List Arrival) : (polled s).length ≤ s.length ∧ (polled s).head? ≠ some .quiet ∧
    (Arrival.interrupted ∉ s → Arrival.interrupted ∉ polled s) ∧ (Roomy ms s → Roomy ms (polled s)) ∧
    (Together ms (polled s) ↔ Together ms s) := by
  induction s with
  | nil => exact ⟨le_rfl, by simp [polled], id, id, Iff.rfl⟩
  | cons a s ih =>
      cases a with
      | quiet =>
          obtain ⟨hle, hhead, hsteady, hroomy, htogether⟩ := ih
          refine ⟨hle.trans (Nat.le_succ _), hhead,
            fun h => hsteady fun hmem => h (List.mem_cons_of_mem _ hmem), fun h => hroomy h.2,
            htogether.trans (Iff.symm ?_)⟩
          exact and_iff_right fun _ ⟨_, _, hlo, hhi⟩ => absurd (hlo.trans hhi) (lt_irrefl _)
      | bytes x t => exact ⟨le_rfl, by simp [polled], id, id, Iff.rfl⟩
      | interrupted => exact ⟨le_rfl, by simp [polled], id, id, Iff.rfl⟩

theorem eq_nil_of_flatten {ms' : List Bytes} (hms : ∀ m ∈ ms', Message m) (h : ms'.flatten = []) :
    ms' = [] := by
  cases ms' with
  | nil => rfl
  | cons m rest =>
      have hheader := (hms m List.mem_cons_self).header
      rw [(List.append_eq_nil_iff.mp h).1] at hheader
      exact absurd hheader (by decide)

theorem serve_sync {ms' : List Bytes} (hms : ∀ m ∈ ms', Message m) (hsuf : ms' <:+ ms) {n : ℕ}
    (hn : ms'.length + s.length < n) (hsteady : Arrival.interrupted ∉ s) (hroomy : Roomy ms s)
    (hdata : data s = ms'.flatten) : serve n s = some ms' ↔ Together ms s := by
  induction n generalizing s ms' with
  | zero => omega
  | succ n ih =>
      obtain ⟨hle, hhead, hsteady', hroomy', htogether⟩ := polled_keeps ms s
      have hdata' := (data_polled s).trans hdata
      rw [serve]
      by_cases hnil : polled s = []
      · rw [if_pos hnil]
        rw [hnil] at hdata'
        obtain rfl := eq_nil_of_flatten hms hdata'.symm
        exact iff_of_true rfl (together_of_nil hdata)
      rw [if_neg hnil, ← htogether]
      have hfuel : ms'.length < n + 1 := by omega
      obtain ⟨done, ret, s', hrun, hs', hr', rest, rfl, hend⟩ :=
        connLoop_sync hms hsuf hfuel fresh_fits rfl (hsteady' hsteady) (hroomy' hroomy)
          ((List.nil_append _).trans hdata')
      have hgood : Good ms (polled s) ↔ Together ms (polled s) :=
        and_iff_right fun hquiet => absurd hquiet hhead
      have hpos : 0 < (polled s).length := List.length_pos_of_ne_nil hnil
      have hconn : handleConn (n + 1) (polled s) = some (done, ret, s') := hrun
      have happend {r : Option (List Bytes)} : r.map (fun r => done ++ r) = some (done ++ rest) ↔ r = some rest := by
        rw [Option.map_eq_some_iff]
        simp
      rw [hconn, ← hgood]
      dsimp only
      rcases hend with ⟨rfl, rfl, rfl, hgood'⟩ | ⟨rfl, hlt, hlast⟩
      · rw [if_neg (by simp), happend]
        obtain ⟨n, rfl⟩ : ∃ k, n = k + 1 := ⟨n - 1, by omega⟩
        exact iff_of_true rfl hgood'
      · rw [if_neg (by simp), happend]
        rcases hlast with ⟨hsync, hiff⟩ | ⟨hlost, hnot⟩
        · rw [hiff]
          refine ih (fun m hm => hms m (List.mem_append_right _ hm))
            ((List.suffix_append done rest).trans hsuf) ?_ hs' hr' hsync
          rw [List.length_append] at hn
          omega
        · refine iff_of_false (fun hserve => ?_) hnot
          have := serve_bound hserve
          omega

/-- A stream of messages comes through exactly if no call is left with a part of one.
The stream is that of one connection over all wake-ups, and the parts are cut wherever
the arrivals are. -/
theorem messages_delivered_iff (hms : ∀ m ∈ ms, Message m) (hs : Cut ms s) :
    (∃ n, serve n s = some ms) ↔ Together ms s := by
  have hsync (n : ℕ) (hn : ms.length + s.length < n) :=
    serve_sync hms List.suffix_rfl hn hs.steady hs.roomy hs.data
  constructor
  · rintro ⟨n, hn⟩
    have hmore := serve_mono_add hn (ms.length + s.length + 1)
    exact (hsync _ (by omega)).mp hmore
  · intro h
    exact ⟨_, (hsync _ (Nat.lt_succ_self _)).mpr h⟩

end Streams

namespace Sample

/-- A request without attributes. -/
def request (cmd : ℕ) : Bytes := Bytes.ofLe 4 8 ++ Bytes.ofLe 4 cmd

/-- Two requests: the first one comes in two parts, the second one by itself. -/
def whole : List Arrival :=
  [.bytes 8 [0, 0, 0], .quiet, .bytes 1 [0, 0, 0], .quiet, .bytes 8 [0, 0, 0, 2, 0, 0, 0]]

/-- The second request begins with the end of the first one. -/
def torn : List Arrival :=
  [.bytes 8 [0, 0, 0, 1, 0, 0, 0, 8, 0], .quiet, .bytes 0 [0, 2, 0, 0, 0]]

end Sample

theorem Sample.requests_messages : ∀ m ∈ [Sample.request 1, Sample.request 2], Message m := by
  intro m hm
  rcases List.mem_pair.mp hm with rfl | rfl
  · exact ⟨by decide, by decide, by decide⟩
  · exact ⟨by decide, by decide, by decide⟩

theorem whole_delivered : ∃ n, serve n Sample.whole = some [Sample.request 1, Sample.request 2] := by
  refine (messages_delivered_iff Sample.requests_messages (s := Sample.whole) ?_).mpr ?_
  · exact ⟨by decide, by decide, by decide, by decide, by decide, by decide, by decide, trivial⟩
  · exact ⟨by decide, by decide, by decide, by decide, by decide, trivial⟩

/-- Two requests arrive together, the second one without its end. The part of it that
came early is lost with the buffer, and what comes later is no message. -/
theorem torn_lost : (∀ m ∈ [Sample.request 1, Sample.request 2], Message m) ∧
    Cut [Sample.request 1, Sample.request 2] Sample.torn ∧
    ¬ ∃ n, serve n Sample.torn = some [Sample.request 1, Sample.request 2] := by
  refine ⟨Sample.requests_messages, ⟨by decide, by decide, by decide, by decide, by decide, trivial⟩, ?_⟩
  rintro ⟨n, hn⟩
  have hrun : serve 3 Sample.torn = some [Sample.request 1] := by decide
  have hboth := serve_mono_add hrun n
  rw [Nat.add_comm, serve_mono_add hn 3] at hboth
  exact absurd hboth (by decide)

end Wsupp.Cntrl
