import CoopHttp.Proofs.Payload.Declared
import CoopHttp.Proofs.Server.Options
import Mathlib.Data.List.Perm.Basic

/-!
# Settings written as a command line

Settings are written as one option for each value, the switch for a shared port if it is on, and the
addresses. Shuffle the options as one likes, put the addresses between them in their order, repeat an
option in front of itself with another value: the settings that come back are the same. Leave a part
out, and it comes back as its default, with everything else as it was.
-/
namespace CoopHttp

/-! Texts that are read as given values. -/

theorem Decimal.exists_natural?_eq {bound n : ℕ} (h : n < bound) :
    ∃ text, Decimal.natural? bound (Bytes.ofText text) = some n := by
  refine ⟨String.ofList ([] ++ Nat.toDigits 10 n), Decimal.natural?_eq_some_iff.2 (.inl ?_)⟩
  rw [Decimal.ofText_append_toDigits rfl]
  exact Decimal.numeral?_filter_eq_some_iff.1 (by simp [ascii, Decimal.numeral?_write, h])

/-- What is read as a number without a sign is read as a whole number. -/
theorem Decimal.integer?_of_natural? {bound n : ℕ} {text : Bytes}
    (h : Decimal.natural? bound text = some n) : Decimal.integer? bound text = some (n : ℤ) := by
  unfold Decimal.integer?
  split
  · rename_i rest
    obtain hnumeral | ⟨rest', heq, -⟩ := Decimal.natural?_eq_some_iff.1 h
    · exact absurd (hnumeral.isDigit 45 (by simp)) (by decide)
    · cases heq
  · rw [h]
    rfl

theorem Decimal.exists_integer?_eq {n : ℤ} (hlow : -((1 <<< 31 : ℕ) : ℤ) ≤ n)
    (hhigh : n < (1 <<< 31 : ℕ)) :
    ∃ text, Decimal.integer? (1 <<< 31) (Bytes.ofText text) = some n := by
  obtain ⟨m, rfl | rfl⟩ := n.eq_nat_or_neg
  · obtain ⟨text, htext⟩ := Decimal.exists_natural?_eq (Int.ofNat_lt.1 hhigh)
    exact ⟨text, Decimal.integer?_of_natural? htext⟩
  · refine ⟨String.ofList (['-'] ++ Nat.toDigits 10 m), ?_⟩
    have hsign : ascii (String.ofList ['-']) = [45] := by decide
    have hm : m ≤ 1 <<< 31 := by omega
    rw [Decimal.ofText_append_toDigits rfl, hsign, List.singleton_append, Decimal.integer?,
      Decimal.numeral?_write, Option.filter_some, if_pos (by simpa using hm)]
    rfl

theorem LogLevel.ofText?_name (level : LogLevel) : LogLevel.ofText? level.name = some level := by
  have hname : Bytes.ofText level.name = ascii level.name :=
    Bytes.ofText_eq_ascii (by cases level <;> decide)
  rw [LogLevel.ofText?, hname]
  cases level <;> decide

namespace ServerConfig

inductive Part
  | addresses
  | reusePort
  | value (k : Setting)
  deriving DecidableEq, Repr

namespace Part

def reset : Part → ServerConfig → ServerConfig
  | addresses, c => { c with addresses := ({} : ServerConfig).addresses }
  | reusePort, c => { c with reusePort := ({} : ServerConfig).reusePort }
  | value k, c => k.set (k.get {}) c

theorem get_reset (p : Part) (k : Setting) (c : ServerConfig) :
    k.get (p.reset c) = if p = .value k then k.get {} else k.get c := by
  cases p with
  | addresses | reusePort => cases k <;> rfl
  | value k' =>
    by_cases hk : k' = k
    · subst hk
      simp [reset]
    · rw [if_neg (by simpa using hk), reset, Setting.get_set_of_ne (Ne.symm hk)]

theorem addresses_reset (p : Part) (c : ServerConfig) :
    (p.reset c).addresses =
      if p = .addresses then ({} : ServerConfig).addresses else c.addresses := by
  cases p <;> simp [reset]

theorem reusePort_reset (p : Part) (c : ServerConfig) :
    (p.reset c).reusePort = if p = .reusePort then false else c.reusePort := by
  cases p <;> simp [reset]

@[simp]
theorem timerGranularity_reset (p : Part) (c : ServerConfig) :
    (p.reset c).timerGranularity = c.timerGranularity := by
  cases p <;> simp [reset]

end Part

def Item.part : Item → Part
  | reusePort => .reusePort
  | option k _ => .value k
  | address _ => .addresses

theorem Item.part_of_address? {item : Item} (h : item.address?.isSome) : item.part = .addresses := by
  cases item with
  | address => rfl
  | reusePort | option => cases h

theorem Item.part_of_text? {k : Setting} {item : Item} (h : (item.text? k).isSome) :
    item.part = .value k := by
  cases item with
  | reusePort | address => cases h
  | option k' text =>
    by_cases hk : k' = k
    · rw [Item.part, hk]
    · rw [Item.text?, if_neg hk] at h
      cases h

/-! Leaving a part out. -/

/-- The command line without what it says about a part. -/
def leaveOut (p : Part) (line : List Item) : List Item := line.filter fun item => item.part ≠ p

theorem filterMap_leaveOut {f : Item → Option String} {q : Part}
    (hf : ∀ item, (f item).isSome → item.part = q) (p : Part) (line : List Item) :
    (leaveOut p line).filterMap f = if p = q then [] else line.filterMap f := by
  have hitem : ∀ item, (if decide (item.part ≠ p) then f item else none) =
      if p = q then none else f item := by
    intro item
    cases htext : f item with
    | none => simp
    | some text => simp [hf item (by simp [htext]), eq_comm (a := p)]
  rw [leaveOut, List.filterMap_filter, List.filterMap_congr fun item _ => hitem item]
  split_ifs
  · exact List.filterMap_eq_nil_iff.2 fun _ _ => rfl
  · rfl

theorem addressesOf_leaveOut (p : Part) (line : List Item) :
    addressesOf (leaveOut p line) = if p = .addresses then [] else addressesOf line :=
  filterMap_leaveOut (fun _ => Item.part_of_address?) p line

theorem lastText?_leaveOut (k : Setting) (p : Part) (line : List Item) :
    lastText? k (leaveOut p line) = if p = .value k then none else lastText? k line := by
  rw [lastText?, filterMap_leaveOut (fun _ => Item.part_of_text?)]
  split_ifs <;> rfl

/-- What is left out has its default, and nothing else changes. -/
theorem Describes.leaveOut {line : List Item} {c : ServerConfig} (h : Describes line c) (p : Part) :
    Describes (leaveOut p line) (p.reset c) where
  addresses_eq := by
    rw [Part.addresses_reset, addressesOf_leaveOut]
    split_ifs with hp hnil hnil
    · rfl
    · exact absurd rfl hnil
    · rw [h.addresses_eq, if_pos hnil]
    · rw [h.addresses_eq, if_neg hnil]
  reusePort_iff := by
    rw [Part.reusePort_reset, ServerConfig.leaveOut, List.mem_filter, ← h.reusePort_iff]
    cases p <;> simp [Item.part]
  timerGranularity_eq := by rw [Part.timerGranularity_reset, h.timerGranularity_eq]
  get_eq k := by
    rw [Part.get_reset, lastText?_leaveOut]
    split_ifs with hp
    · rfl
    · exact h.get_eq k

/-! Repeating options. -/

/-- The second command line is the first one with options repeated: in front of an option stand others
for the same setting, with other texts that can be read. -/
inductive Repeats (line : List Item) : List Item → Prop
  | refl : Repeats line line
  | insert {before after : List Item} {k : Setting} {text last : String}
      (earlier : Repeats line (before ++ after)) (valid : (k.read? text).isSome)
      (mem_after : .option k last ∈ after) :
      Repeats line (before ++ .option k text :: after)

/-- The last option decides, so another one in front of it does not matter. -/
theorem lastText?_insert {before after : List Item} {k : Setting} {text last : String}
    (h : .option k last ∈ after) (k' : Setting) :
    lastText? k' (before ++ .option k text :: after) = lastText? k' (before ++ after) := by
  rw [lastText?, lastText?, List.filterMap_append, List.filterMap_append, List.filterMap_cons]
  by_cases hk : k = k'
  · subst hk
    have hmem : last ∈ after.filterMap (Item.text? k) :=
      List.mem_filterMap.2 ⟨_, h, by simp [Item.text?]⟩
    have hne := List.ne_nil_of_mem hmem
    simp only [Item.text?, if_pos]
    rw [List.getLast?_append_of_ne_nil _ (List.cons_ne_nil _ _), List.getLast?_append_of_ne_nil _ hne,
      List.getLast?_cons_of_ne_nil hne]
  · simp only [Item.text?, if_neg hk]

theorem addressesOf_insert (before after : List Item) (k : Setting) (text : String) :
    addressesOf (before ++ .option k text :: after) = addressesOf (before ++ after) := by
  simp [addressesOf, Item.address?, List.filterMap_cons]

theorem Repeats.valid {line line' : List Item} (h : Repeats line line')
    (hvalid : ∀ item ∈ line, item.Valid) : ∀ item ∈ line', item.Valid := by
  induction h with
  | refl => exact hvalid
  | insert earlier htext hafter ih =>
    intro item hitem
    simp only [List.mem_append, List.mem_cons] at hitem ih
    obtain hbefore | rfl | hafter := hitem
    · exact ih item (.inl hbefore)
    · exact htext
    · exact ih item (.inr hafter)

theorem Repeats.describes {line line' : List Item} {c : ServerConfig} (h : Repeats line line')
    (hc : Describes line c) : Describes line' c := by
  induction h with
  | refl => exact hc
  | insert earlier htext hafter ih =>
    exact
      { addresses_eq := by rw [addressesOf_insert, ih.addresses_eq]
        reusePort_iff := by simpa using ih.reusePort_iff
        timerGranularity_eq := ih.timerGranularity_eq
        get_eq := fun k => by rw [lastText?_insert hafter, ih.get_eq k] }

/-! Writing settings. -/

/-- Texts that are read as the values of the settings. -/
def Spells (c : ServerConfig) (texts : Setting → String) : Prop :=
  ∀ k : Setting, k.read? (texts k) = some (k.get c)

/-- The options that settings are written with. -/
def groups (c : ServerConfig) (texts : Setting → String) : List Item :=
  Setting.all.map (fun k => .option k (texts k)) ++ if c.reusePort then [.reusePort] else []

/-- The command line is made of the options of the settings in some order, with the addresses between
them in their own order. -/
structure Writes (c : ServerConfig) (texts : Setting → String) (line : List Item) : Prop where
  addresses_eq : addressesOf line = c.addresses
  groups_perm : (leaveOut .addresses line).Perm (groups c texts)

variable {c : ServerConfig} {texts : Setting → String} {line : List Item}

theorem filterMap_text?_groups (c : ServerConfig) (texts : Setting → String) (k : Setting) :
    (groups c texts).filterMap (Item.text? k) = [texts k] := by
  cases hreuse : c.reusePort <;> cases k <;> simp [groups, Setting.all, Item.text?, hreuse]

/-- Wherever the options stand, each setting has its one text. -/
theorem Writes.lastText?_eq (h : Writes c texts line) (k : Setting) :
    lastText? k line = some (texts k) := by
  have hfilter : (leaveOut .addresses line).filterMap (Item.text? k) =
      line.filterMap (Item.text? k) := by
    rw [filterMap_leaveOut (fun _ => Item.part_of_text?), if_neg (by simp)]
  have hperm := h.groups_perm.filterMap (Item.text? k)
  rw [hfilter, filterMap_text?_groups, List.perm_singleton] at hperm
  rw [lastText?, hperm]
  rfl

theorem Writes.mem_iff (h : Writes c texts line) {item : Item} (hitem : item.part ≠ .addresses) :
    item ∈ line ↔ item ∈ groups c texts := by
  rw [← h.groups_perm.mem_iff, leaveOut, List.mem_filter]
  simp [hitem]

theorem Writes.valid (h : Writes c texts line) (htexts : Spells c texts)
    (haddresses : ∀ text ∈ c.addresses, IsAddress text) : ∀ item ∈ line, item.Valid := by
  intro item hitem
  cases item with
  | reusePort => trivial
  | address text =>
    refine haddresses text ?_
    rw [← h.addresses_eq]
    exact List.mem_filterMap.2 ⟨_, hitem, rfl⟩
  | option k text =>
    rw [h.mem_iff (by simp [Item.part])] at hitem
    obtain ⟨k', hk', heq⟩ : ∃ k' ∈ Setting.all, Item.option k' (texts k') = .option k text := by
      cases hreuse : c.reusePort <;> simpa [groups, hreuse] using hitem
    cases heq
    rw [Item.Valid, htexts k]
    rfl

theorem Writes.describes (h : Writes c texts line) (htexts : Spells c texts)
    (hne : c.addresses ≠ []) (htimer : c.timerGranularity = ({} : ServerConfig).timerGranularity) :
    Describes line c where
  addresses_eq := by rw [h.addresses_eq, if_neg hne]
  reusePort_iff := by
    rw [h.mem_iff (by simp [Item.part])]
    cases hreuse : c.reusePort <;> simp [groups, hreuse]
  timerGranularity_eq := htimer
  get_eq k := by rw [h.lastText?_eq, Option.elim_some, htexts k]

/-! Settings that can be written. -/

/-- A duration is a number of whole seconds, as large as 64 bits can hold. -/
def WholeSeconds (d : ℕ) : Prop := ∃ n < UInt64.size, d = Duration.ofSeconds n

theorem WholeSeconds.exists_seconds? {d : ℕ} (h : WholeSeconds d) : ∃ text, seconds? text = some d := by
  obtain ⟨n, hn, rfl⟩ := h
  obtain ⟨text, htext⟩ := Decimal.exists_natural?_eq hn
  exact ⟨text, by rw [seconds?, htext, Option.map_some]⟩

/-- Settings that can be written: each value fits where it is kept, the timeouts are whole seconds, the
granularity of the deadlines is the default, and there is an address, none of them like an option. -/
structure Writable (c : ServerConfig) : Prop where
  addresses_ne_nil : c.addresses ≠ []
  isAddress : ∀ text ∈ c.addresses, IsAddress text
  port_lt : c.port < UInt16.size
  le_backlog : -((1 <<< 31 : ℕ) : ℤ) ≤ c.backlog
  backlog_lt : c.backlog < (1 <<< 31 : ℕ)
  headerTimeout : WholeSeconds c.headerTimeout
  keepAliveTimeout : WholeSeconds c.keepAliveTimeout
  bodyTimeout : WholeSeconds c.bodyTimeout
  writeTimeout : WholeSeconds c.writeTimeout
  timerGranularity_eq : c.timerGranularity = ({} : ServerConfig).timerGranularity

theorem Writable.exists_spells (h : c.Writable) : ∃ texts, Spells c texts := by
  have htext : ∀ k : Setting, ∃ text, k.read? text = some (k.get c)
    | .port => Decimal.exists_natural?_eq h.port_lt
    | .backlog => Decimal.exists_integer?_eq h.le_backlog h.backlog_lt
    | .logLevel => ⟨_, LogLevel.ofText?_name c.logLevel⟩
    | .headerTimeout => h.headerTimeout.exists_seconds?
    | .keepAlive => h.keepAliveTimeout.exists_seconds?
    | .bodyTimeout => h.bodyTimeout.exists_seconds?
    | .writeTimeout => h.writeTimeout.exists_seconds?
  exact Classical.skolem.1 htext

/-- The options first, in a fixed order, and then the addresses. -/
theorem writes_groups_append (c : ServerConfig) (texts : Setting → String) :
    Writes c texts (groups c texts ++ c.addresses.map .address) where
  addresses_eq := by
    have hgroups : (groups c texts).filterMap Item.address? = [] := by
      cases hreuse : c.reusePort <;> simp [groups, Setting.all, hreuse, Item.address?]
    have haddresses : Item.address? ∘ .address = some := rfl
    rw [addressesOf, List.filterMap_append, hgroups, List.filterMap_map, haddresses,
      List.filterMap_some, List.nil_append]
  groups_perm := by
    have hgroups : ∀ item ∈ groups c texts, item.part ≠ .addresses := by
      cases hreuse : c.reusePort <;> simp [groups, Setting.all, hreuse, Item.part]
    have haddresses :
        (c.addresses.map Item.address).filter (fun item => item.part ≠ .addresses) = [] :=
      List.filter_eq_nil_iff.2 (by simp [Item.part])
    rw [leaveOut, List.filter_append, List.filter_eq_self.2 (by simpa using hgroups), haddresses,
      List.append_nil]

/-! The round trip. -/

theorem describes_foldr_leaveOut (h : Describes line c) (left : List Part) :
    Describes (left.foldr leaveOut line) (left.foldr Part.reset c) := by
  induction left with
  | nil => exact h
  | cons p left ih => exact ih.leaveOut p

theorem valid_foldr_leaveOut (h : ∀ item ∈ line, item.Valid) (left : List Part) :
    ∀ item ∈ left.foldr leaveOut line, item.Valid := by
  induction left with
  | nil => exact h
  | cons p left ih => exact fun item hitem => ih item (List.mem_of_mem_filter hitem)

/-- Settings can be written, and whatever command line they are written as, with options repeated or
not, reading it gives them back; the parts that are left out come back as their defaults. -/
theorem ofArgs_of_writes (h : c.Writable) :
    (∃ texts line, Spells c texts ∧ Writes c texts line) ∧
    ∀ {texts line line'}, Spells c texts → Writes c texts line → Repeats line line' →
      ofArgs (argsOf line') = .ok c ∧
      ∀ left : List Part,
        ofArgs (argsOf (left.foldr leaveOut line')) = .ok (left.foldr Part.reset c) := by
  refine ⟨?_, fun htexts hwrites hrepeats => ?_⟩
  · obtain ⟨texts, htexts⟩ := h.exists_spells
    exact ⟨texts, _, htexts, writes_groups_append c texts⟩
  have hvalid := hrepeats.valid (hwrites.valid htexts h.isAddress)
  have hdescribes := hrepeats.describes
    (hwrites.describes htexts h.addresses_ne_nil h.timerGranularity_eq)
  exact ⟨(ofArgs_argsOf_iff hvalid).2 hdescribes, fun left =>
    (ofArgs_argsOf_iff (valid_foldr_leaveOut hvalid left)).2
      (describes_foldr_leaveOut hdescribes left)⟩

/-- Settings with a negative backlog, which reads like an option, and a lone dash for an address. -/
def dashed : ServerConfig where
  addresses := ["::1", "-"]
  port := 8080
  backlog := -5
  reusePort := true
  logLevel := .debug
  keepAliveTimeout := Duration.ofSeconds 5

def dashedTexts : Setting → String
  | .port => "8080"
  | .backlog => "-5"
  | .logLevel => "debug"
  | .headerTimeout => "+10"
  | .keepAlive => "05"
  | .bodyTimeout => "30"
  | .writeTimeout => "30"

/-- The settings written with the options in no order, and with one address among them. -/
def dashedLine : List Item :=
  [.option .keepAlive "05", .address "::1", .reusePort, .option .backlog "-5", .option .port "8080",
    .option .writeTimeout "30", .option .logLevel "debug", .option .headerTimeout "+10",
    .option .bodyTimeout "30", .address "-"]

theorem dashed_writable : dashed.Writable where
  addresses_ne_nil := by decide
  isAddress := by simp [dashed, IsAddress]
  port_lt := by decide
  le_backlog := by decide
  backlog_lt := by decide
  headerTimeout := ⟨10, by decide, rfl⟩
  keepAliveTimeout := ⟨5, by decide, rfl⟩
  bodyTimeout := ⟨30, by decide, rfl⟩
  writeTimeout := ⟨30, by decide, rfl⟩
  timerGranularity_eq := rfl

theorem dashed_spells : Spells dashed dashedTexts := by
  intro k
  have htext : Bytes.ofText (dashedTexts k) = ascii (dashedTexts k) :=
    Bytes.ofText_eq_ascii (by cases k <;> decide)
  cases k <;> simp only [Setting.read?, seconds?, LogLevel.ofText?, htext] <;> rfl

theorem dashed_writes : Writes dashed dashedTexts dashedLine where
  addresses_eq := rfl
  groups_perm := by decide

/-- A port that is repeated in front of itself does not matter, and a backlog that is left out is the
default. -/
theorem ofArgs_dashed :
    ofArgs ["--keep-alive", "05", "--port", "1", "::1", "--reuse-port", "--backlog", "-5", "--port",
      "8080", "--write-timeout", "30", "--log-level", "debug", "--header-timeout", "+10",
      "--body-timeout", "30", "-"] = .ok dashed ∧
    ofArgs ["--keep-alive", "05", "--port", "1", "::1", "--reuse-port", "--port", "8080",
      "--write-timeout", "30", "--log-level", "debug", "--header-timeout", "+10",
      "--body-timeout", "30", "-"] = .ok { dashed with backlog := 50 } := by
  have hport : (Setting.port.read? "1").isSome := by
    have htext : Bytes.ofText "1" = ascii "1" := Bytes.ofText_eq_ascii (by decide)
    rw [Setting.read?, htext]
    rfl
  have hrepeats : Repeats dashedLine (dashedLine.take 1 ++ .option .port "1" :: dashedLine.drop 1) :=
    .insert .refl hport (by decide : .option .port "8080" ∈ dashedLine.drop 1)
  obtain ⟨hwhole, hleft⟩ := (ofArgs_of_writes dashed_writable).2 dashed_spells dashed_writes hrepeats
  exact ⟨hwhole, hleft [.value .backlog]⟩

end ServerConfig

end CoopHttp
