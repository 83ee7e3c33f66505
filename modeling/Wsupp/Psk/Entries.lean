import Wsupp.Psk.Content

/-!
# Entries of the PSK file

A file written by the daemon is a list of entries, each a name and a key of 32
bytes. Looking an SSID up finds the first entry for it, and the buffer is changed
entry by entry.

The text of a list is that of its lines, so the search goes through the entries in
their order, and a line matches an SSID exactly if it is the line of an entry of
that name, since spelling is injective. Whether names occur twice is left open here;
a list without repetitions is a map, and what the daemon does to it keeps it one.
-/
namespace Wsupp

structure Entry where
  ssid : Bytes
  psk : Bytes
deriving DecidableEq, Repr

namespace Entry

/-- The line of the file that says so. -/
def line (en : Entry) : Bytes := Config.fmtBytes en.psk ++ 0x20 :: Config.spell en.ssid

structure Proper (en : Entry) : Prop where
  named : en.ssid ≠ []
  key : en.psk.length = 32

theorem Proper.length_line {en : Entry} (h : en.Proper) :
    en.line.length = 65 + (Config.spell en.ssid).length := by
  simp only [line, List.length_append, Config.length_fmtBytes, h.key, List.length_cons]
  omega

theorem newline_line (en : Entry) : (0x0A : UInt8) ∉ en.line := by
  have hpsk : (0x0A : UInt8) ∉ Config.fmtBytes en.psk := by
    intro h
    obtain ⟨x, -, hx⟩ := List.mem_flatMap.mp h
    obtain ⟨hhi, hlo, -⟩ := Config.nibbles x
    simp [(Config.digits_plain hhi).2.2.symm, (Config.digits_plain hlo).2.2.symm] at hx
  simp [line, hpsk, Config.newline_spell]

end Entry

def entriesText (es : List Entry) : Bytes := Text.unlines 0x0A (es.map Entry.line)

@[simp] theorem entriesText_nil : entriesText [] = [] := rfl

@[simp] theorem entriesText_append (es es' : List Entry) :
    entriesText (es ++ es') = entriesText es ++ entriesText es' := by
  simp only [entriesText, List.map_append, Text.unlines_append]

@[simp] theorem entriesText_cons (en : Entry) (es : List Entry) :
    entriesText (en :: es) = en.line ++ 0x0A :: entriesText es := by
  simp only [entriesText, List.map_cons, Text.unlines_cons]

/-- The offsets of a line, given the entries before it. -/
def Entry.bounds (en : Entry) (es : List Entry) : ℕ × ℕ :=
  ((entriesText es).length, (entriesText es).length + en.line.length)

namespace Config

/-- The file has been loaded, and it is made of these entries: the buffer begins with
the text of their lines, and its length is that of the data. -/
structure Holds (c : Config) (es : List Entry) : Prop where
  mapped : c.config.isSome = true
  text : c.buf.take c.datalen = entriesText es
  len : c.datalen = (entriesText es).length
  room : c.datalen ≤ c.blocklen
  proper : ∀ en ∈ es, en.Proper

namespace Holds
variable {c : Config} {es es₁ es₂ : List Entry} {en : Entry}

theorem datalen_le (h : c.Holds es) : c.datalen ≤ c.buf.length := by
  have hlen := congrArg List.length h.text
  rw [List.length_take, ← h.len] at hlen
  omega

theorem setline_end (h : c.Holds es) : c.setline (entriesText es).length = none :=
  if_pos h.len.le

theorem drop_text (h : c.Holds (es₁ ++ en :: es₂)) :
    (c.buf.take c.datalen).drop (entriesText es₁).length = en.line ++ 0x0A :: entriesText es₂ := by
  rw [h.text, entriesText_append, List.drop_left, entriesText_cons]

theorem setline_entry (h : c.Holds (es₁ ++ en :: es₂)) :
    c.setline (entriesText es₁).length = some (en.bounds es₁) := by
  have hdrop := h.drop_text
  have hlt : ¬ c.datalen ≤ (entriesText es₁).length := by
    rw [h.len, entriesText_append, List.length_append, entriesText_cons]
    simp
  unfold setline
  rw [if_neg hlt, skipline_eq h.datalen_le (by omega), hdrop, Text.takeWhile_stops]
  · rfl
  · intro y hy
    simp only [decide_not, Bool.not_eq_eq_eq_not, Bool.not_true, decide_eq_false_iff_not]
    rintro rfl
    exact en.newline_line hy
  · rfl

theorem nextline_entry : c.nextline (en.bounds es₁) = c.setline (entriesText (es₁ ++ [en])).length := by
  simp only [nextline, Entry.bounds, entriesText_append, entriesText_cons, entriesText_nil,
    List.length_append, List.length_cons, List.length_nil]
  rfl

theorem take_line (h : c.Holds (es₁ ++ en :: es₂)) :
    (c.buf.take (en.bounds es₁).2).drop (en.bounds es₁).1 = en.line := by
  have hdrop := congrArg (List.take en.line.length) h.drop_text
  have hle : (en.bounds es₁).2 ≤ c.datalen := by
    rw [h.len, entriesText_append, entriesText_cons]
    simp [Entry.bounds]
  rw [List.take_left, List.take_drop, List.take_take] at hdrop
  rw [Entry.bounds] at hle ⊢
  dsimp only at hle ⊢
  rw [min_eq_left hle] at hdrop
  exact hdrop

theorem splitLine_entry (h : c.Holds (es₁ ++ en :: es₂)) :
    c.splitLine (en.bounds es₁) 2 =
      [((en.bounds es₁).1, (en.bounds es₁).1 + 64), ((en.bounds es₁).1 + 65, (en.bounds es₁).2)] := by
  have hen : en.Proper := h.proper en (by simp)
  have hkey : (fmtBytes en.psk).length = 64 := by rw [length_fmtBytes, hen.key]
  have he : (en.bounds es₁).2 ≤ c.buf.length := by
    refine le_trans ?_ h.datalen_le
    rw [h.len, entriesText_append, entriesText_cons]
    simp [Entry.bounds]
  have hsplit := splitFrom_words he (word_fmtBytes en.psk) (Word.flatMap word_fmtByte en.ssid)
    (List.ne_nil_of_length_pos (by omega)) (spell_ne_nil hen.named) h.take_line
  rw [hkey] at hsplit
  exact hsplit

theorem slice_line (h : c.Holds (es₁ ++ en :: es₂)) {off n : ℕ} (hn : off + n ≤ en.line.length) :
    c.buf.slice ((en.bounds es₁).1 + off) n = en.line.slice off n := by
  rw [← h.take_line, Bytes.slice, Bytes.slice, List.drop_drop, List.take_drop, List.take_drop,
    List.take_take, min_eq_left]
  simp only [Entry.bounds]
  omega

theorem slice_key (h : c.Holds (es₁ ++ en :: es₂)) :
    c.buf.slice (en.bounds es₁).1 64 = fmtBytes en.psk := by
  have hen : en.Proper := h.proper en (by simp)
  have hkey : (fmtBytes en.psk).length = 64 := by rw [length_fmtBytes, hen.key]
  rw [← Nat.add_zero (en.bounds es₁).1, h.slice_line (by rw [hen.length_line]; omega)]
  exact List.take_left' hkey

theorem chunkeq_entry (h : c.Holds (es₁ ++ en :: es₂)) (val : Bytes) :
    c.chunkeq ((en.bounds es₁).1 + 65, (en.bounds es₁).2) val = decide (spell en.ssid = val) := by
  have hen : en.Proper := h.proper en (by simp)
  have hkey : (fmtBytes en.psk).length = 64 := by rw [length_fmtBytes, hen.key]
  have hlen : (en.bounds es₁).2 - ((en.bounds es₁).1 + 65) = (spell en.ssid).length := by
    simp only [Entry.bounds, hen.length_line]
    omega
  have hname : c.buf.slice ((en.bounds es₁).1 + 65) (spell en.ssid).length = spell en.ssid := by
    rw [h.slice_line (by rw [hen.length_line])]
    have hdrop : en.line.drop 65 = spell en.ssid := by
      rw [Entry.line, ← List.drop_drop (i := 1) (j := 64), List.drop_left' hkey]
      rfl
    rw [Bytes.slice, hdrop, List.take_length]
  unfold chunkeq
  dsimp only
  rw [hlen]
  by_cases hval : (spell en.ssid).length = val.length
  · rw [← hval, hname]
    simp
  · have hne : spell en.ssid ≠ val := fun heq => hval (congrArg _ heq)
    simp [hval, hne]

theorem findFrom_entry (h : c.Holds (es₁ ++ en :: es₂)) (val : Bytes) (n : ℕ) :
    c.findFrom 1 val (n + 1) (c.setline (entriesText es₁).length) =
      if spell en.ssid = val then some (en.bounds es₁)
      else c.findFrom 1 val n (c.setline (entriesText (es₁ ++ [en])).length) := by
  rw [h.setline_entry, ← nextline_entry]
  simp only [findFrom, h.splitLine_entry, List.getElem?_cons_succ, List.getElem?_cons_zero,
    h.chunkeq_entry, decide_eq_true_eq]

theorem findFrom_skips {val : Bytes} {es : List Entry} (hes : ∀ en ∈ es, spell en.ssid ≠ val)
    (h : c.Holds (es₁ ++ (es ++ es₂))) (n : ℕ) :
    c.findFrom 1 val (es.length + n) (c.setline (entriesText es₁).length) =
      c.findFrom 1 val n (c.setline (entriesText (es₁ ++ es)).length) := by
  induction es generalizing es₁ with
  | nil => rw [List.length_nil, Nat.zero_add, List.append_nil]
  | cons en es ih =>
      have hrest : c.Holds (es₁ ++ [en] ++ (es ++ es₂)) := by
        rw [List.append_assoc]
        exact h
      rw [List.length_cons, Nat.add_right_comm, findFrom_entry h, if_neg (hes en List.mem_cons_self),
        ih (fun e he => hes e (List.mem_cons_of_mem _ he)) hrest, List.append_assoc]
      rfl

theorem length_le (h : c.Holds es) : es.length ≤ c.datalen := by
  rw [h.len, ← List.length_map Entry.line]
  exact Text.length_le_unlines _

theorem findSsid_absent (h : c.Holds es) {ssid : Bytes}
    (hes : ∀ en ∈ es, spell en.ssid ≠ fmtSsid 0 100 ssid) : c.findSsid ssid = none := by
  have hlen := h.length_le
  have hwhole : c.Holds ([] ++ (es ++ [])) := by simpa using h
  have hskip := findFrom_skips hes hwhole (c.datalen + 1 - es.length)
  rw [Nat.add_sub_cancel' (by omega)] at hskip
  refine hskip.trans ?_
  rw [List.nil_append, h.setline_end]
  cases c.datalen + 1 - es.length <;> rfl

theorem findSsid_first {ssid : Bytes} (h : c.Holds (es₁ ++ en :: es₂))
    (hes : ∀ en ∈ es₁, spell en.ssid ≠ fmtSsid 0 100 ssid) (hen : spell en.ssid = fmtSsid 0 100 ssid) :
    c.findSsid ssid = some (en.bounds es₁) := by
  have hlen := h.length_le
  rw [List.length_append, List.length_cons] at hlen
  have hwhole : c.Holds ([] ++ (es₁ ++ en :: es₂)) := by simpa using h
  have hskip := findFrom_skips hes hwhole (c.datalen - es₁.length + 1)
  rw [← Nat.add_assoc, Nat.add_sub_cancel' (by omega)] at hskip
  refine hskip.trans ?_
  rw [List.nil_append, findFrom_entry h, if_pos hen]

end Holds

/-- The lines that a search for the SSID would stop at. -/
def linesOf (c : Config) (ssid : Bytes) : List (ℕ × ℕ) :=
  (c.linesFrom (c.datalen + 1) c.firstline).filter fun ln =>
    (c.splitLine ln 2)[1]?.any fun ck => c.chunkeq ck (fmtSsid 0 100 ssid)

theorem Holds.length_linesOf {c : Config} {es : List Entry} (h : c.Holds es) (ssid : Bytes) :
    (c.linesOf ssid).length = es.countP fun en => spell en.ssid = fmtSsid 0 100 ssid := by
  have hfrom (es₂ : List Entry) : ∀ es₁ n, c.Holds (es₁ ++ es₂) → es₂.length < n →
      ((c.linesFrom n (c.setline (entriesText es₁).length)).filter fun ln =>
        (c.splitLine ln 2)[1]?.any fun ck => c.chunkeq ck (fmtSsid 0 100 ssid)).length =
      es₂.countP fun en => spell en.ssid = fmtSsid 0 100 ssid := by
    induction es₂ with
    | nil =>
        intro es₁ n h hn
        rw [List.append_nil] at h
        rw [h.setline_end]
        cases n <;> rfl
    | cons en es₂ ih =>
        intro es₁ n h hn
        obtain ⟨n, rfl⟩ : ∃ m, n = m + 1 := ⟨n - 1, by omega⟩
        have hrest : c.Holds (es₁ ++ [en] ++ es₂) := by
          rw [List.append_assoc]
          exact h
        rw [List.length_cons] at hn
        have hcount := ih _ n hrest (by omega)
        rw [h.setline_entry, linesFrom, Holds.nextline_entry, List.filter_cons, List.countP_cons]
        simp only [h.splitLine_entry, List.getElem?_cons_succ, List.getElem?_cons_zero,
          Option.any_some, h.chunkeq_entry]
        split
        · rw [List.length_cons, hcount]
        · exact hcount
  have hlen := h.length_le
  exact hfrom es [] _ h (by omega)

end Config
end Wsupp
