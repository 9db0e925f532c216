import CoopHttp.Server.Config
import Mathlib.Data.Int.Notation
import Mathlib.Data.List.Induction
import Mathlib.Tactic.Common

/-!
# Options in any order

A command line is a series of options, with the values that belong to them, and of addresses. What it
gives is said for every setting by itself: the value of its last option, or the default. So neither the
order of the options nor the places of the addresses between them matter, an option may be repeated,
and one that is left out touches no other setting.
-/
namespace CoopHttp.ServerConfig

inductive Setting
  | port
  | backlog
  | logLevel
  | headerTimeout
  | keepAlive
  | bodyTimeout
  | writeTimeout
  deriving DecidableEq, Repr

namespace Setting

def all : List Setting :=
  [port, backlog, logLevel, headerTimeout, keepAlive, bodyTimeout, writeTimeout]

def flag : Setting → String
  | port => "--port"
  | backlog => "--backlog"
  | logLevel => "--log-level"
  | headerTimeout => "--header-timeout"
  | keepAlive => "--keep-alive"
  | bodyTimeout => "--body-timeout"
  | writeTimeout => "--write-timeout"

def Value : Setting → Type
  | port | headerTimeout | keepAlive | bodyTimeout | writeTimeout => ℕ
  | backlog => ℤ
  | logLevel => LogLevel

def get : (k : Setting) → ServerConfig → k.Value
  | port, c => c.port
  | backlog, c => c.backlog
  | logLevel, c => c.logLevel
  | headerTimeout, c => c.headerTimeout
  | keepAlive, c => c.keepAliveTimeout
  | bodyTimeout, c => c.bodyTimeout
  | writeTimeout, c => c.writeTimeout

def set : (k : Setting) → k.Value → ServerConfig → ServerConfig
  | port, v, c => { c with port := v }
  | backlog, v, c => { c with backlog := v }
  | logLevel, v, c => { c with logLevel := v }
  | headerTimeout, v, c => { c with headerTimeout := v }
  | keepAlive, v, c => { c with keepAliveTimeout := v }
  | bodyTimeout, v, c => { c with bodyTimeout := v }
  | writeTimeout, v, c => { c with writeTimeout := v }

def read? : (k : Setting) → String → Option k.Value
  | port, text => Decimal.natural? UInt16.size (Bytes.ofText text)
  | backlog, text => Decimal.integer? (1 <<< 31) (Bytes.ofText text)
  | logLevel, text => LogLevel.ofText? text
  | headerTimeout, text | keepAlive, text | bodyTimeout, text | writeTimeout, text => seconds? text

/-- An option with a value reads the value and changes its setting. -/
theorem valued?_flag (k : Setting) :
    valued? k.flag = some fun c text => (k.read? text).map fun v => k.set v c := by
  cases k <;> rfl

@[simp]
theorem get_set_self (k : Setting) (v : k.Value) (c : ServerConfig) : k.get (k.set v c) = v := by
  cases k <;> rfl

theorem get_set_of_ne {k k' : Setting} (h : k ≠ k') (v : k'.Value) (c : ServerConfig) :
    k.get (k'.set v c) = k.get c := by
  cases k <;> cases k' <;> first | rfl | exact absurd rfl h

@[simp]
theorem addresses_set (k : Setting) (v : k.Value) (c : ServerConfig) :
    (k.set v c).addresses = c.addresses := by
  cases k <;> rfl

@[simp]
theorem reusePort_set (k : Setting) (v : k.Value) (c : ServerConfig) :
    (k.set v c).reusePort = c.reusePort := by
  cases k <;> rfl

@[simp]
theorem timerGranularity_set (k : Setting) (v : k.Value) (c : ServerConfig) :
    (k.set v c).timerGranularity = c.timerGranularity := by
  cases k <;> rfl

end Setting

/-- Settings are told by their parts. -/
theorem eq_of_get_eq {c d : ServerConfig} (hget : ∀ k : Setting, k.get c = k.get d)
    (haddresses : c.addresses = d.addresses) (hreuse : c.reusePort = d.reusePort)
    (htimer : c.timerGranularity = d.timerGranularity) : c = d := by
  obtain ⟨_, _, _, _, _, _, _, _, _, _⟩ := c
  obtain ⟨_, _, _, _, _, _, _, _, _, _⟩ := d
  cases haddresses
  cases hreuse
  cases htimer
  cases hget .port
  cases hget .backlog
  cases hget .logLevel
  cases hget .headerTimeout
  cases hget .keepAlive
  cases hget .bodyTimeout
  cases hget .writeTimeout
  rfl

/-! Command lines. -/

/-- What an argument begins: an option with the value behind it, if it takes one, or an address. -/
inductive Item
  | reusePort
  | option (k : Setting) (text : String)
  | address (text : String)
  deriving DecidableEq, Repr

/-- A text that is no option: it does not begin with a dash, unless it is one. -/
def IsAddress (text : String) : Prop := text.toList.head? = some '-' → text = "-"

namespace Item

def args : Item → List String
  | reusePort => ["--reuse-port"]
  | option k text => [k.flag, text]
  | address text => [text]

def Valid : Item → Prop
  | reusePort => True
  | option k text => (k.read? text).isSome
  | address text => IsAddress text

/-- What the item makes of the settings before it. -/
def apply : Item → ServerConfig → ServerConfig
  | reusePort, c => { c with reusePort := true }
  | option k text, c => (k.read? text).elim c (k.set · c)
  | address _, c => c

def address? : Item → Option String
  | address text => some text
  | reusePort | option .. => none

/-- The text that the item gives as the value of a setting. -/
def text? (k : Setting) : Item → Option String
  | option k' text => if k' = k then some text else none
  | reusePort | address _ => none

end Item

def argsOf (line : List Item) : List String := line.flatMap Item.args

def addressesOf (line : List Item) : List String := line.filterMap Item.address?

/-- The text of the last option that gives a setting. -/
def lastText? (k : Setting) (line : List Item) : Option String :=
  (line.filterMap (Item.text? k)).getLast?

/-- The settings are what the command line says: its addresses, and for every setting the value of its
last option; where it says nothing, the default. -/
structure Describes (line : List Item) (c : ServerConfig) : Prop where
  addresses_eq : c.addresses =
    if addressesOf line = [] then ({} : ServerConfig).addresses else addressesOf line
  reusePort_iff : c.reusePort = true ↔ .reusePort ∈ line
  timerGranularity_eq : c.timerGranularity = ({} : ServerConfig).timerGranularity
  get_eq : ∀ k : Setting, (lastText? k line).elim (some (k.get {})) k.read? = some (k.get c)

theorem Describes.unique {line : List Item} {c d : ServerConfig} (hc : Describes line c)
    (hd : Describes line d) : c = d := by
  refine eq_of_get_eq (fun k => ?_) (hc.addresses_eq.trans hd.addresses_eq.symm) ?_
    (hc.timerGranularity_eq.trans hd.timerGranularity_eq.symm)
  · exact Option.some.inj ((hc.get_eq k).symm.trans (hd.get_eq k))
  · rw [Bool.eq_iff_iff, hc.reusePort_iff, hd.reusePort_iff]

/-! Reading a command line. -/

theorem isOption_eq_false {text : String} (h : IsAddress text) : isOption text = false := by
  unfold isOption
  split
  · rename_i c rest htext
    have hdash : text = "-" := h (by rw [htext]; rfl)
    rw [hdash] at htext
    exact absurd (congrArg List.length htext) (by simp)
  · rfl

theorem valued?_eq_none {text : String} (h : IsAddress text) : valued? text = none := by
  have hoption := isOption_eq_false h
  unfold valued?
  split <;> first | rfl | exact absurd hoption (by decide)

/-- An item is read at once, whatever follows. -/
theorem readArgs_item {item : Item} (h : item.Valid) (c : ServerConfig) (addresses rest : List String) :
    readArgs c addresses (item.args ++ rest) =
      readArgs (item.apply c) (addresses ++ item.address?.toList) rest := by
  cases item with
  | reusePort => simp [Item.args, readArgs, Item.apply, Item.address?]
  | option k text =>
    obtain ⟨v, hv⟩ := Option.isSome_iff_exists.1 h
    have hhelp : ¬ (k.flag = "-h" ∨ k.flag = "--help") := by cases k <;> decide
    have hreuse : k.flag ≠ "--reuse-port" := by cases k <;> decide
    rw [Item.args, List.cons_append, List.singleton_append, readArgs, if_neg hhelp, if_neg hreuse]
    simp [k.valued?_flag, hv, Item.apply, Item.address?]
  | address text =>
    have hoption := isOption_eq_false h
    have hne {flag : String} (hflag : isOption flag = true) : text ≠ flag := by
      rintro rfl
      rw [hoption] at hflag
      cases hflag
    have hhelp : ¬ (text = "-h" ∨ text = "--help") :=
      not_or.2 ⟨hne (by decide), hne (by decide)⟩
    rw [Item.args, List.singleton_append, readArgs, if_neg hhelp, if_neg (hne (by decide)),
      valued?_eq_none h]
    simp [hoption, Item.apply, Item.address?]

/-- What a command line makes of the settings before it. -/
def settle (c : ServerConfig) (line : List Item) : ServerConfig :=
  line.foldl (fun c item => item.apply c) c

theorem readArgs_argsOf {line : List Item} (h : ∀ item ∈ line, item.Valid) (c : ServerConfig)
    (addresses : List String) :
    readArgs c addresses (argsOf line) = .ok (settle c line, addresses ++ addressesOf line) := by
  induction line generalizing c addresses with
  | nil => simp [argsOf, readArgs, settle, addressesOf]
  | cons item line ih =>
    have hline : argsOf (item :: line) = item.args ++ argsOf line := rfl
    rw [hline, readArgs_item (h item (by simp)), ih fun later hlater => h later (by simp [hlater])]
    cases item <;> simp [settle, addressesOf, Item.address?, List.filterMap_cons]

theorem settle_concat (c : ServerConfig) (line : List Item) (item : Item) :
    settle c (line ++ [item]) = item.apply (settle c line) := by
  simp [settle]

theorem lastText?_concat (k : Setting) (line : List Item) (item : Item) :
    lastText? k (line ++ [item]) = (item.text? k).or (lastText? k line) := by
  cases h : item.text? k <;> simp [lastText?, List.filterMap_append, h]

/-- Each setting has the value of its last option. -/
theorem get_settle {line : List Item} (h : ∀ item ∈ line, item.Valid) (c : ServerConfig)
    (k : Setting) :
    (lastText? k line).elim (some (k.get c)) k.read? = some (k.get (settle c line)) := by
  induction line using List.reverseRecOn with
  | nil => rfl
  | append_singleton line item ih =>
    have hline := ih fun item hitem => h item (by simp [hitem])
    rw [settle_concat, lastText?_concat]
    cases item with
    | reusePort =>
      have hget : k.get (Item.reusePort.apply (settle c line)) = k.get (settle c line) := by
        cases k <;> rfl
      rw [hget]
      exact hline
    | address text => exact hline
    | option k' text =>
      obtain ⟨v, hv⟩ := Option.isSome_iff_exists.1 (h (.option k' text) (by simp))
      have happly : (Item.option k' text).apply (settle c line) = k'.set v (settle c line) := by
        rw [Item.apply, hv, Option.elim_some]
      rw [happly]
      by_cases hk : k' = k
      · subst hk
        simp [Item.text?, hv]
      · rw [Setting.get_set_of_ne (Ne.symm hk), Item.text?, if_neg hk]
        exact hline

theorem addresses_settle (c : ServerConfig) (line : List Item) :
    (settle c line).addresses = c.addresses ∧
      (settle c line).timerGranularity = c.timerGranularity := by
  induction line using List.reverseRecOn with
  | nil => exact ⟨rfl, rfl⟩
  | append_singleton line item ih =>
    rw [settle_concat]
    cases item with
    | reusePort | address => exact ih
    | option k text => cases hv : k.read? text <;> simpa [Item.apply, hv] using ih

theorem reusePort_settle (c : ServerConfig) (line : List Item) :
    (settle c line).reusePort = true ↔ c.reusePort = true ∨ .reusePort ∈ line := by
  induction line using List.reverseRecOn with
  | nil => simp [settle]
  | append_singleton line item ih =>
    rw [settle_concat]
    cases item with
    | reusePort => simp [Item.apply]
    | address text => simpa [Item.apply] using ih
    | option k text => cases hv : k.read? text <;> simpa [Item.apply, hv] using ih

/-- A command line that is written as it should be gives exactly what it says. -/
theorem ofArgs_argsOf_iff {line : List Item} (h : ∀ item ∈ line, item.Valid) {c : ServerConfig} :
    ofArgs (argsOf line) = .ok c ↔ Describes line c := by
  obtain ⟨d, hd, hdescribes⟩ : ∃ d, ofArgs (argsOf line) = .ok d ∧ Describes line d := by
    rw [ofArgs, readArgs_argsOf h, List.nil_append]
    obtain ⟨haddresses, htimer⟩ := addresses_settle {} line
    have hreuse : (settle {} line).reusePort = true ↔ .reusePort ∈ line := by
      rw [reusePort_settle]
      exact or_iff_right (by decide)
    have hget := get_settle h {}
    by_cases hnil : addressesOf line = []
    · exact ⟨settle {} line, by simp [Except.map, hnil],
        ⟨by rw [if_pos hnil, haddresses], hreuse, htimer, hget⟩⟩
    · refine ⟨{ settle {} line with addresses := addressesOf line }, by simp [Except.map, hnil],
        ⟨by rw [if_neg hnil], hreuse, htimer, fun k => (hget k).trans ?_⟩⟩
      cases k <;> rfl
  rw [hd]
  constructor
  · intro heq
    cases heq
    exact hdescribes
  · intro hc
    rw [hc.unique hdescribes]

end CoopHttp.ServerConfig
