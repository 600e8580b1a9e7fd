import Mathlib.Data.List.Count
import Zapper.Lib.CString
import Zapper.Stream.Bookkeeping

/-!
# The configuration parser

`parse_config_file` (`config_parser.c`) reads a file token by token. A token is taken apart by
`strtok` at its equals signs, and the value of a key that has a branch is converted and stored;
the parser keeps a flag for each of the eight keys, refuses a key whose flag is already set, and
in the end all flags must be set.

Numbers go through `atoi`, which stops at the first character that is no digit and takes a sign,
and are checked only after they have been narrowed to the type of their field. The branches of
`modulation` and of the two types are not entered at all if the value is not the one they
recognise, so that the file may give such a key twice. `sound_iff` says for which accepted files
the result is what the file says.
-/

namespace Zapper

open CString

/-! ### The parser -/

/-- The keys, in the order of `loaded_params`. -/
inductive ConfigKey
  | frequency
  | bandwidth
  | modulation
  | audioPid
  | videoPid
  | audioType
  | videoType
  | programNumber
  deriving DecidableEq

/-- What the parser stores: `config_params`. -/
structure FileParams extends ConfigParams where
  modulation : ℕ

namespace ConfigKey

/-- The keys in the order in which they are compared with a token. -/
def all : List ConfigKey :=
  [frequency, bandwidth, modulation, audioPid, videoPid, audioType, videoType, programNumber]

/-- A key as it is written in the file. -/
def name : ConfigKey → List Char
  | frequency => "frequency".toList
  | bandwidth => "bandwidth".toList
  | modulation => "modulation".toList
  | audioPid => "audio_pid".toList
  | videoPid => "video_pid".toList
  | audioType => "audio_type".toList
  | videoType => "video_type".toList
  | programNumber => "program_number".toList

/-- A key as it is called in the messages. -/
def label : ConfigKey → String
  | frequency => "Frequency"
  | bandwidth => "Bandwidth"
  | modulation => "Modulation"
  | audioPid => "Audio PID"
  | videoPid => "Video PID"
  | audioType => "Audio type"
  | videoType => "Video type"
  | programNumber => "Program number"

/-- The only value that the branch of a key recognises; the others take a number. -/
def recognised : ConfigKey → Option (List Char)
  | modulation => some "DVB_T".toList
  | audioType => some "AUDIO_TYPE_MPEG_AUDIO".toList
  | videoType => some "VIDEO_TYPE_MPEG2".toList
  | _ => none

/-- The width of the field of a number: `uint32_t`, and `uint8_t` for the program number. -/
def bits : ConfigKey → ℕ
  | programNumber => 8
  | _ => 32

/-- The field of a key. -/
def get : ConfigKey → FileParams → ℕ
  | frequency, p => p.frequency
  | bandwidth, p => p.bandwidth
  | modulation, p => p.modulation
  | audioPid, p => p.audioPid
  | videoPid, p => p.videoPid
  | audioType, p => p.audioType
  | videoType, p => p.videoType
  | programNumber, p => p.programNumber

/-- Store to the field of a key. -/
def set (n : ℕ) (p : FileParams) : ConfigKey → FileParams
  | frequency => { p with frequency := n }
  | bandwidth => { p with bandwidth := n }
  | modulation => { p with modulation := n }
  | audioPid => { p with audioPid := n }
  | videoPid => { p with videoPid := n }
  | audioType => { p with audioType := n }
  | videoType => { p with videoType := n }
  | programNumber => { p with programNumber := n }

/-- `atoi`, narrowed to the field, and the test for zero; any function may stand for `atoi`. -/
def readNumberBy (toInt : List Char → ℤ) (k : ConfigKey) (value : List Char) : Except String ℕ :=
  let n := (toInt value % 2 ^ k.bits).toNat
  if n = 0 then .error (k.label ++ " must be given as a number!") else .ok n

/-- What the branch of a key stores for a value. -/
def readBy (toInt : List Char → ℤ) (value : List Char) : ConfigKey → Except String ℕ
  -- `DVB_T`
  | modulation => .ok 0
  -- `AUDIO_TYPE_MPEG_AUDIO`
  | audioType => .ok 10
  -- `VIDEO_TYPE_MPEG2`
  | videoType => .ok 42
  | programNumber =>
    match programNumber.readNumberBy toInt value with
    | .error e => .error e
    | .ok n => if n < 1 ∨ n > 7 then .error "Program number must be in range 1-7!" else .ok n
  | k => k.readNumberBy toInt value

/-- The condition of a key's branch on the value. -/
def Enters (k : ConfigKey) (value : List Char) : Prop := ∀ v, k.recognised = some v → value = v

instance (k : ConfigKey) (value : List Char) : Decidable (k.Enters value) :=
  match h : k.recognised with
  | none => isTrue (by simp [Enters, h])
  | some v => decidable_of_iff (value = v) (by simp [Enters, h])

end ConfigKey

/-- The state of the parser: `params` and `loaded_params`. -/
structure ConfigState where
  params : FileParams
  loaded : ConfigKey → Bool

/-- Store a value, and set the flag of its key. -/
def ConfigState.load (c : ConfigState) (k : ConfigKey) (n : ℕ) : ConfigState where
  params := k.set n c.params
  loaded := fun k' => k' = k || c.loaded k'

/-- The branch of a key. -/
def ConfigKey.branchBy (toInt : List Char → ℤ) (k : ConfigKey) (param value : List Char)
    (c : ConfigState) : Except String ConfigState :=
  if param = k.name ∧ k.Enters value then
    if c.loaded k then .error (k.label ++ " declared more than once in config file!")
    else (k.readBy toInt value).map fun n => c.load k n
  else .ok c

/-- A token of the file, as `fscanf` reads it into `config_line`. -/
structure Token where
  text : List Char
  ne_nil : text ≠ []
  noSpace : ∀ c ∈ text, isSpace c = false
  length_lt : text.length < 50

/-- The two fields that `strtok` cuts out of a token. -/
def Token.fields (t : Token) : Option (List Char × List Char) :=
  (strtok '=' t.text).bind fun x => (strtok '=' x.2).map fun y => (x.1, y.1)

/-- The loop's body for a token. -/
def parseTokenBy (toInt : List Char → ℤ) (c : ConfigState) (t : Token) :
    Except String ConfigState :=
  match t.fields with
  | none => .error "Invalid config file format or values missing!"
  | some (param, value) => ConfigKey.all.foldlM (fun c k => k.branchBy toInt param value c) c

/-- `parse_config_file`, with any function for `atoi`: whether the file can be opened and closed,
its tokens, and what lies in `params`. -/
def parseConfigFileBy (toInt : List Char → ℤ) (opens closes : Bool) (tokens : List Token)
    (params : FileParams) : Except String FileParams :=
  if opens then
    match tokens.foldlM (parseTokenBy toInt) ⟨params, fun _ => false⟩ with
    | .error e => .error e
    | .ok c =>
      if closes then
        if (ConfigKey.all.map fun k => (c.loaded k).toNat).sum % 2 ^ 8 = 8 then .ok c.params
        else .error "Config file not valid!"
      else .error "File stream could not be closed!"
  else .error "File could not be opened!"

/-- `parse_config_file`. -/
def parseConfigFile : Bool → Bool → List Token → FileParams → Except String FileParams :=
  parseConfigFileBy atoi

variable {k k' : ConfigKey} {c c' : ConfigState} {t : Token} {tokens : List Token}
  {param value : List Char} {n : ℕ} {params₀ params : FileParams} {opens closes : Bool}

namespace ConfigKey

theorem mem_all (k : ConfigKey) : k ∈ all := by cases k <;> decide

theorem nodup_all : all.Nodup := by decide

theorem name_inj (h : k.name = k'.name) : k = k' := by
  cases k <;> cases k' <;> first | rfl | exact absurd h (by decide)

theorem name_ne_nil (k : ConfigKey) : k.name ≠ [] := by cases k <;> decide

theorem get_set (k k' : ConfigKey) (n : ℕ) (p : FileParams) :
    k'.get (k.set n p) = if k' = k then n else k'.get p := by
  cases k <;> cases k' <;> rfl

end ConfigKey

/-! ### What a token does -/

/-- The value that a token has for a key, if it enters the branch of the key. -/
def Token.loads (t : Token) (k : ConfigKey) : Option (List Char) :=
  t.fields.bind fun x => if x.1 = k.name ∧ k.Enters x.2 then some x.2 else none

theorem Token.loads_eq_some :
    t.loads k = some value ↔ t.fields = some (k.name, value) ∧ k.Enters value := by
  unfold loads
  cases t.fields with
  | none => simp
  | some x =>
    obtain ⟨param, v⟩ := x
    simp only [Option.bind_some, Option.ite_none_right_eq_some, Option.some.injEq, Prod.mk.injEq]
    constructor
    · rintro ⟨⟨rfl, he⟩, rfl⟩
      exact ⟨⟨rfl, rfl⟩, he⟩
    · rintro ⟨⟨rfl, rfl⟩, he⟩
      exact ⟨⟨rfl, he⟩, rfl⟩

/-- Two steps of the parser. -/
theorem bind_eq_ok {α β : Type} {x : Except String α} {f : α → Except String β} {b : β}
    (h : (x >>= f) = .ok b) : ∃ a, x = .ok a ∧ f a = .ok b := by
  cases x with
  | error e => cases h
  | ok a => exact ⟨a, rfl, h⟩

/-- A branch that is entered loads its key, for the first time; another does nothing. -/
theorem branch_eq_ok (h : k.branchBy atoi param value c = .ok c') :
    ((param = k.name ∧ k.Enters value) ∧ c.loaded k = false ∧
        ∃ n, k.readBy atoi value = .ok n ∧ c' = c.load k n) ∨
      ¬ (param = k.name ∧ k.Enters value) ∧ c' = c := by
  unfold ConfigKey.branchBy at h
  split at h
  · next henters =>
    split at h
    · cases h
    · next hloaded =>
      cases hread : k.readBy atoi value with
      | error e =>
        rw [hread] at h
        cases h
      | ok n =>
        rw [hread] at h
        obtain rfl := Except.ok.inj h
        exact .inl ⟨henters, by simpa using hloaded, n, rfl, rfl⟩
  · next henters =>
    obtain rfl := Except.ok.inj h
    exact .inr ⟨henters, rfl⟩

/-- At most one of the branches is entered. -/
theorem foldlM_branch {ks : List ConfigKey} (hks : ks.Nodup)
    (h : ks.foldlM (fun c k => k.branchBy atoi param value c) c = .ok c') :
    (∃ k ∈ ks, (param = k.name ∧ k.Enters value) ∧ c.loaded k = false ∧
        ∃ n, k.readBy atoi value = .ok n ∧ c' = c.load k n) ∨
      (∀ k ∈ ks, ¬ (param = k.name ∧ k.Enters value)) ∧ c' = c := by
  induction ks generalizing c with
  | nil =>
    obtain rfl := Except.ok.inj h
    exact .inr ⟨by simp, rfl⟩
  | cons k ks ih =>
    obtain ⟨hk, hks⟩ := List.nodup_cons.mp hks
    rw [List.foldlM_cons] at h
    obtain ⟨c₁, hc₁, hrun⟩ := bind_eq_ok h
    obtain ⟨henters, hloaded, n, hread, rfl⟩ | ⟨hne, rfl⟩ := branch_eq_ok hc₁
    · -- no other key has this name
      have hrest : ∀ k₁ ∈ ks, param ≠ k₁.name := by
        rintro k₁ hk₁ hp
        obtain rfl := ConfigKey.name_inj (henters.1.symm.trans hp)
        exact hk hk₁
      obtain ⟨k₁, hk₁, ⟨hp, -⟩, -⟩ | ⟨-, rfl⟩ := ih hks hrun
      · exact absurd hp (hrest k₁ hk₁)
      · exact .inl ⟨k, by simp, henters, hloaded, n, hread, rfl⟩
    · obtain ⟨k₁, hk₁, hload⟩ | ⟨hrest, rfl⟩ := ih hks hrun
      · exact .inl ⟨k₁, by simp [hk₁], hload⟩
      · refine .inr ⟨fun k₁ hk₁ => ?_, rfl⟩
        obtain rfl | hk₁ := List.mem_cons.mp hk₁
        · exact hne
        · exact hrest k₁ hk₁

/-- **What a token does**: it has two fields, and loads one key, for the first time, or none. -/
theorem parseToken_eq_ok (h : parseTokenBy atoi c t = .ok c') :
    (∃ x, t.fields = some x) ∧
      ((∃ k value n, t.loads k = some value ∧ (∀ k', k' ≠ k → t.loads k' = none) ∧
          c.loaded k = false ∧ k.readBy atoi value = .ok n ∧ c' = c.load k n) ∨
        (∀ k, t.loads k = none) ∧ c' = c) := by
  unfold parseTokenBy at h
  split at h
  · cases h
  · next param value hfields =>
    refine ⟨⟨_, hfields⟩, ?_⟩
    have hloads : ∀ k, t.loads k = none ↔ ¬ (param = k.name ∧ k.Enters value) := by
      intro k
      simp [Token.loads, hfields]
    obtain ⟨k, -, henters, hloaded, n, hread, rfl⟩ | ⟨hnone, rfl⟩ :=
      foldlM_branch ConfigKey.nodup_all h
    · refine .inl ⟨k, value, n, ?_, fun k' hk' => ?_, hloaded, hread, rfl⟩
      · exact Token.loads_eq_some.mpr ⟨by rw [hfields, henters.1], henters.2⟩
      · rw [hloads]
        rintro ⟨hp, -⟩
        exact hk' (ConfigKey.name_inj (hp.symm.trans henters.1))
    · exact .inr ⟨fun k => (hloads k).mpr (hnone k k.mem_all), rfl⟩

/-! ### What the parser has read -/

/-- The values that the tokens have for a key. -/
def loadsOf (tokens : List Token) (k : ConfigKey) : List (List Char) :=
  tokens.filterMap (Token.loads · k)

/-- What the state of the parser says about the tokens it has read. -/
structure Read (tokens : List Token) (c : ConfigState) : Prop where
  fields : ∀ t ∈ tokens, ∃ x, t.fields = some x
  loaded : ∀ k, (loadsOf tokens k).length = (c.loaded k).toNat
  value : ∀ k, ∀ value ∈ loadsOf tokens k, k.readBy atoi value = .ok (k.get c.params)

theorem Read.parseToken (hc : Read tokens c) (h : parseTokenBy atoi c t = .ok c') :
    Read (tokens ++ [t]) c' := by
  obtain ⟨hfields, hloads⟩ := parseToken_eq_ok h
  have happend : ∀ k, loadsOf (tokens ++ [t]) k = loadsOf tokens k ++ (t.loads k).toList := by
    intro k
    cases ht : t.loads k <;> simp [loadsOf, ht]
  refine ⟨fun t' ht' => ?_, fun k' => ?_, fun k' v hv => ?_⟩
  · obtain ht' | ht' : t' ∈ tokens ∨ t' = t := by simpa using ht'
    · exact hc.fields t' ht'
    · exact ht' ▸ hfields
  · rw [happend, List.length_append, hc.loaded]
    obtain ⟨k, value, n, hk, hothers, hnew, -, rfl⟩ | ⟨hnone, rfl⟩ := hloads
    · by_cases hk' : k' = k
      · subst hk'
        simp [hk, hnew, ConfigState.load]
      · simp [hothers k' hk', hk', ConfigState.load]
    · simp [hnone k']
  · rw [happend, List.mem_append] at hv
    obtain ⟨k, value, n, hk, hothers, hnew, hread, rfl⟩ | ⟨hnone, rfl⟩ := hloads
    · by_cases hk' : k' = k
      · subst hk'
        -- the flag says that no value has been read for the key before
        have hnil : loadsOf tokens k' = [] := by
          rw [← List.length_eq_zero_iff, hc.loaded, hnew]
          rfl
        obtain rfl : v = value := by simpa [hnil, hk] using hv
        simpa [ConfigState.load, ConfigKey.get_set] using hread
      · have hv : v ∈ loadsOf tokens k' := by simpa [hothers k' hk'] using hv
        simpa [ConfigState.load, ConfigKey.get_set, hk'] using hc.value k' v hv
    · have hv : v ∈ loadsOf tokens k' := by simpa [hnone k'] using hv
      exact hc.value k' v hv

theorem Read.foldlM {pre : List Token} (hc : Read pre c)
    (h : tokens.foldlM (parseTokenBy atoi) c = .ok c') : Read (pre ++ tokens) c' := by
  induction tokens generalizing pre c with
  | nil =>
    obtain rfl := Except.ok.inj h
    simpa using hc
  | cons t tokens ih =>
    rw [List.foldlM_cons] at h
    obtain ⟨c₁, hc₁, hrun⟩ := bind_eq_ok h
    simpa using ih (hc.parseToken hc₁) hrun

/-- An accepted file has one value for each key, and it is what is stored. -/
structure Accepted (tokens : List Token) (params : FileParams) : Prop where
  fields : ∀ t ∈ tokens, ∃ x, t.fields = some x
  value : ∀ k, ∃ value, loadsOf tokens k = [value] ∧ k.readBy atoi value = .ok (k.get params)

/-- The checksum is right only if all flags are set. -/
theorem loaded_of_checksum {loaded : ConfigKey → Bool}
    (h : (ConfigKey.all.map fun k => (loaded k).toNat).sum % 2 ^ 8 = 8) (k : ConfigKey) :
    loaded k = true := by
  by_contra hk
  have hlt : (ConfigKey.all.map fun k => (loaded k).toNat).sum < 8 := by
    have hle : ∀ k' ∈ ConfigKey.all, (loaded k').toNat ≤ 1 := fun k' _ => Bool.toNat_le _
    have hzero : (loaded k).toNat < 1 := by simpa using hk
    simpa [ConfigKey.all] using List.sum_lt_sum _ (fun _ => 1) hle ⟨k, k.mem_all, hzero⟩
  omega

/-- **What the parser accepts.** -/
theorem accepted_of_parseConfigFile
    (h : parseConfigFile opens closes tokens params₀ = .ok params) : Accepted tokens params := by
  unfold parseConfigFile parseConfigFileBy at h
  split at h
  · split at h
    · cases h
    · next c hc =>
      split at h
      · split at h
        · next hsum =>
          obtain rfl := Except.ok.inj h
          have hstart : Read [] ⟨params₀, fun _ => false⟩ :=
            ⟨by simp, fun k => rfl, fun k v hv => by cases hv⟩
          have hread : Read tokens c := by simpa using hstart.foldlM hc
          refine ⟨hread.fields, fun k => ?_⟩
          have hlength : (loadsOf tokens k).length = 1 := by
            rw [hread.loaded, loaded_of_checksum hsum]
            rfl
          obtain ⟨value, hvalue⟩ := List.length_eq_one_iff.mp hlength
          exact ⟨value, hvalue, hread.value k value (by simp [hvalue])⟩
        · cases h
      · cases h
  · cases h

/-! ### What a file says -/

/-- The key a token declares: what is written in front of its equals sign. -/
def Token.keyText (t : Token) : List Char := t.text.takeWhile (· != '=')

/-- The text of the value: all that is written behind the equals sign. -/
def Token.valueText (t : Token) : List Char := (t.text.dropWhile (· != '=')).drop 1

/-- The parameters are what the file says: every key is declared once, the numbers are positive
decimal numbers and are stored as they are written, and the other values are the recognised
ones. -/
structure Sound (tokens : List Token) (params : FileParams) : Prop where
  once : ∀ k : ConfigKey, tokens.countP (fun t => t.keyText = k.name) = 1
  number : ∀ k : ConfigKey, k.recognised = none → ∀ t ∈ tokens, t.keyText = k.name →
    IsDecimal t.valueText ∧ 0 < decimal t.valueText ∧ decimal t.valueText = k.get params
  inRange : ∀ t ∈ tokens, t.keyText = ConfigKey.programNumber.name →
    1 ≤ decimal t.valueText ∧ decimal t.valueText ≤ 7
  recognised : ∀ (k : ConfigKey) v, k.recognised = some v → ∀ t ∈ tokens, t.keyText = k.name →
    t.valueText = v

/-- The condition on a file. -/
structure Plain (tokens : List Token) : Prop where
  /-- A token whose value is stored has one equals sign. -/
  single : ∀ t ∈ tokens, ∀ k, (t.loads k).isSome = true → t.text.count '=' = 1
  /-- The modulation and the types are given at most once, whatever their values. -/
  once : ∀ k : ConfigKey, k.recognised.isSome = true →
    tokens.countP (fun t => t.keyText = k.name) ≤ 1
  /-- Numbers are written with digits only. -/
  digits : ∀ k : ConfigKey, k.recognised = none → ∀ t ∈ tokens, t.keyText = k.name →
    ∀ c ∈ t.valueText, c.isDigit = true
  /-- The program number fits its field. -/
  small : ∀ t ∈ tokens, t.keyText = ConfigKey.programNumber.name → decimal t.valueText < 2 ^ 8

/-- The number in a token is in the range of `int`. -/
def Token.InRange (t : Token) : Prop :=
  ∀ x, t.fields = some x → -2 ^ 31 ≤ atoi x.2 ∧ atoi x.2 < 2 ^ 31

instance (t : Token) : Decidable t.InRange :=
  match h : t.fields with
  | none => isTrue (by simp [Token.InRange, h])
  | some x => decidable_of_iff (-2 ^ 31 ≤ atoi x.2 ∧ atoi x.2 < 2 ^ 31)
      (by simp [Token.InRange, h])

/-- What is written in front of the first equals sign is the first field, and what is behind it
is cut further. -/
theorem Token.fields_of_key (h : t.keyText ≠ []) :
    t.fields = (strtok '=' t.valueText).map fun y => (t.keyText, y.1) := by
  rw [fields, strtok_of_takeWhile h]
  rfl

theorem not_mem_keyText (t : Token) : '=' ∉ t.keyText := by
  intro h
  have hne : ('=' != '=') = true := List.mem_takeWhile_imp (p := (· != '=')) h
  cases hne

/-- A token with two fields has an equals sign. -/
theorem Token.text_eq {x : List Char × List Char} (h : t.fields = some x) :
    t.text = t.keyText ++ '=' :: t.valueText := by
  have hmem : '=' ∈ t.text := by
    by_contra hnot
    rw [fields, strtok_of_not_mem t.ne_nil hnot] at h
    cases h
  conv_lhs => rw [← List.takeWhile_append_dropWhile (p := (· != '=')) (l := t.text)]
  rw [dropWhile_eq_cons hmem]
  rfl

theorem Token.count_text {x : List Char × List Char} (h : t.fields = some x) :
    t.text.count '=' = t.valueText.count '=' + 1 := by
  rw [t.text_eq h, List.count_append, List.count_eq_zero.mpr (not_mem_keyText t), zero_add,
    List.count_cons_self]

/-- If neither the key nor the value has an equals sign, and the key is not empty, the token is
cut as it is written. -/
theorem Token.fields_eq {x : List Char × List Char} (h : t.fields = some x)
    (hkey : t.keyText ≠ []) (hvalue : '=' ∉ t.valueText) : x = (t.keyText, t.valueText) := by
  rw [t.fields_of_key hkey] at h
  have hne : t.valueText ≠ [] := by
    intro hnil
    rw [hnil] at h
    cases h
  rw [strtok_of_not_mem hne hvalue] at h
  exact (Option.some.inj h).symm

/-- **A token with one equals sign** is cut as it is written. -/
theorem Token.fields_of_count {x : List Char × List Char} (h : t.fields = some x)
    (hcount : t.text.count '=' = 1) : x = (t.keyText, t.valueText) := by
  have hvalue : '=' ∉ t.valueText := by
    rw [t.count_text h] at hcount
    exact List.count_eq_zero.mp (by omega)
  refine t.fields_eq h (fun hkey => ?_) hvalue
  -- the token begins with its only equals sign, so that it has one field
  have htext : t.text = '=' :: t.valueText := by simpa [hkey] using t.text_eq h
  rw [fields, htext, strtok_cons_self] at h
  by_cases hnil : t.valueText = []
  · rw [hnil] at h
    cases h
  · rw [strtok_of_not_mem hnil hvalue] at h
    cases h

/-! ### When the parameters are what the file says -/

/-- The only element of a list that a function takes. -/
theorem exists_of_filterMap {α β : Type} {f : α → Option β} {xs : List α} {b : β}
    (h : xs.filterMap f = [b]) :
    ∃ a ∈ xs, f a = some b ∧ ∀ x ∈ xs, (f x).isSome = true → x = a := by
  obtain ⟨l₁, a, l₂, rfl, h₁, ha, h₂⟩ := List.filterMap_eq_cons_iff.mp h
  refine ⟨a, by simp, ha, fun x hx hfx => ?_⟩
  have hnone : ∀ l : List α, (∀ x ∈ l, f x = none) → x ∉ l := by
    intro l hl hx
    rw [hl x hx] at hfx
    cases hfx
  have hx₁ : x ∉ l₁ := hnone l₁ h₁
  have hx₂ : x ∉ l₂ := hnone l₂ (List.filterMap_eq_nil_iff.mp h₂)
  simpa [hx₁, hx₂] using hx

/-- If a function takes what has a property, no more elements have the property than it takes. -/
theorem countP_le_filterMap {α β : Type} {f : α → Option β} {q : α → Bool} {xs : List α}
    (h : ∀ x ∈ xs, q x = true → (f x).isSome = true) :
    xs.countP q ≤ (xs.filterMap f).length := by
  rw [List.length_filterMap_eq_countP]
  exact List.countP_mono_left h

/-- The token of a key in an accepted file. -/
theorem Accepted.token (h : Accepted tokens params) (k : ConfigKey) :
    ∃ t ∈ tokens, ∃ value, t.fields = some (k.name, value) ∧ k.Enters value ∧
      k.readBy atoi value = .ok (k.get params) ∧
        ∀ t' ∈ tokens, (t'.loads k).isSome = true → t' = t := by
  obtain ⟨value, hloads, hread⟩ := h.value k
  obtain ⟨t, ht, hvalue, honly⟩ := exists_of_filterMap hloads
  obtain ⟨hfields, henters⟩ := Token.loads_eq_some.mp hvalue
  exact ⟨t, ht, value, hfields, henters, hread, honly⟩

/-- A number is stored as it is narrowed, if that is not zero. -/
theorem readNumber_eq_ok (h : k.readNumberBy atoi value = .ok n) :
    n = (atoi value % 2 ^ k.bits).toNat ∧ n ≠ 0 := by
  simp only [ConfigKey.readNumberBy] at h
  split at h
  · cases h
  · next hne =>
    obtain rfl := Except.ok.inj h
    exact ⟨rfl, hne⟩

/-- The program number is stored if it is in range once it is narrowed. -/
theorem read_programNumber (h : ConfigKey.programNumber.readBy atoi value = .ok n) :
    ConfigKey.programNumber.readNumberBy atoi value = .ok n ∧ 1 ≤ n ∧ n ≤ 7 := by
  simp only [ConfigKey.readBy] at h
  split at h
  · cases h
  · next m hm =>
    split at h
    · cases h
    · next hrange =>
      obtain rfl := Except.ok.inj h
      exact ⟨hm, by omega⟩

theorem readNumber_of_read (hk : k.recognised = none) (h : k.readBy atoi value = .ok n) :
    k.readNumberBy atoi value = .ok n := by
  cases k with
  | programNumber => exact (read_programNumber h).1
  | modulation => cases hk
  | audioType => cases hk
  | videoType => cases hk
  | _ => exact h

/-- A decimal number that fits its field is stored as it is written. -/
theorem decimal_eq_of_read (hk : k.recognised = none) (h : k.readBy atoi value = .ok n)
    (hdigits : ∀ c ∈ value, c.isDigit = true) (hint : atoi value < 2 ^ 31)
    (hsmall : k = .programNumber → decimal value < 2 ^ 8) :
    IsDecimal value ∧ 0 < decimal value ∧ decimal value = n := by
  obtain ⟨hn, hne⟩ := readNumber_eq_ok (readNumber_of_read hk h)
  have hdecimal : IsDecimal value := by
    refine ⟨?_, hdigits⟩
    rintro rfl
    exact hne hn
  have hatoi : atoi value = decimal value := atoi_of_isDecimal hdecimal
  have hlt : (decimal value : ℤ) < 2 ^ k.bits := by
    by_cases hk' : k = .programNumber
    · have hlt : decimal value < 2 ^ 8 := hsmall hk'
      rw [hk', ConfigKey.bits]
      omega
    · have hbits : k.bits = 32 := by
        cases k <;> first | rfl | exact absurd rfl hk'
      rw [hbits]
      omega
  have heq : decimal value = n := by
    rw [hn, hatoi, Int.emod_eq_of_lt (by omega) hlt, Int.toNat_natCast]
  exact ⟨hdecimal, by omega, heq⟩

/-- A token of a key that the file declares enters the branch of the key, if its value is one that
the branch takes and has no equals sign. -/
theorem Token.loads_of_key {x : List Char × List Char} (hx : t.fields = some x)
    (hkey : t.keyText = k.name) (henters : k.Enters t.valueText) (hvalue : '=' ∉ t.valueText) :
    t.loads k = some t.valueText := by
  have hne : t.keyText ≠ [] := hkey ▸ k.name_ne_nil
  rw [Token.loads_eq_some, hx, t.fields_eq hx hne hvalue, hkey]
  exact ⟨rfl, henters⟩

/-- A token of a number that the file declares enters the branch of the key. -/
theorem Token.loads_of_number {x : List Char × List Char} (hx : t.fields = some x)
    (hkey : t.keyText = k.name) (hk : k.recognised = none) : t.loads k = some x.2 := by
  have hx' := hx
  rw [t.fields_of_key (hkey ▸ k.name_ne_nil)] at hx'
  obtain ⟨y, -, rfl⟩ := Option.map_eq_some_iff.mp hx'
  rw [Token.loads_eq_some, hx, hkey]
  exact ⟨rfl, by simp [ConfigKey.Enters, hk]⟩

theorem Sound.loads (hs : Sound tokens params) (ha : Accepted tokens params) (ht : t ∈ tokens)
    (hkey : t.keyText = k.name) : '=' ∉ t.valueText ∧ t.loads k = some t.valueText := by
  obtain ⟨x, hx⟩ := ha.fields t ht
  have hvalue : '=' ∉ t.valueText ∧ k.Enters t.valueText := by
    cases hk : k.recognised with
    | none =>
      obtain ⟨⟨-, hdigits⟩, -⟩ := hs.number k hk t ht hkey
      exact ⟨fun hmem => absurd (hdigits _ hmem) (by decide), by simp [ConfigKey.Enters, hk]⟩
    | some v =>
      have hv : t.valueText = v := hs.recognised k v hk t ht hkey
      refine ⟨?_, by simp [ConfigKey.Enters, hk, hv]⟩
      rw [hv]
      cases k <;> cases hk <;> decide
  exact ⟨hvalue.1, Token.loads_of_key hx hkey hvalue.2 hvalue.1⟩

/-- What is sound is plain. -/
theorem Sound.plain (hs : Sound tokens params) (ha : Accepted tokens params) : Plain tokens := by
  refine ⟨fun t ht k hloads => ?_, fun k _ => (hs.once k).le, fun k hk t ht hkey => ?_,
    fun t ht hkey => ?_⟩
  · -- the file declares the key, and the parser has taken that token and no other
    obtain ⟨t', ht', hkey⟩ := List.countP_pos_iff.mp (by rw [hs.once k]; exact Nat.one_pos)
    have hkey : t'.keyText = k.name := by simpa using hkey
    obtain ⟨hvalue, hloads'⟩ := hs.loads ha ht' hkey
    obtain ⟨t₁, -, -, -, -, -, honly⟩ := ha.token k
    obtain rfl : t = t' := (honly t ht hloads).trans (honly t' ht' (by simp [hloads'])).symm
    obtain ⟨x, hx⟩ := ha.fields t ht
    rw [t.count_text hx, List.count_eq_zero.mpr hvalue]
  · exact (hs.number k hk t ht hkey).1.2
  · have hle : decimal t.valueText ≤ 7 := (hs.inRange t ht hkey).2
    omega

theorem eq_of_countP_eq_one {α : Type} {q : α → Bool} {xs : List α} (h : xs.countP q = 1)
    {x y : α} (hx : x ∈ xs) (hy : y ∈ xs) (hqx : q x = true) (hqy : q y = true) : x = y := by
  rw [List.countP_eq_length_filter, List.length_eq_one_iff] at h
  obtain ⟨a, ha⟩ := h
  have hmem : ∀ z ∈ xs, q z = true → z = a := by
    intro z hz hqz
    have hz : z ∈ xs.filter q := List.mem_filter.mpr ⟨hz, hqz⟩
    simpa [ha] using hz
  exact (hmem x hx hqx).trans (hmem y hy hqy).symm

/-- The declaration of a key in a plain file. -/
structure Declares (tokens : List Token) (params : FileParams) (k : ConfigKey) (t : Token) :
    Prop where
  mem : t ∈ tokens
  key : t.keyText = k.name
  fields : t.fields = some (t.keyText, t.valueText)
  enters : k.Enters t.valueText
  read : k.readBy atoi t.valueText = .ok (k.get params)
  only : ∀ t' ∈ tokens, t'.keyText = k.name → t' = t
  once : tokens.countP (fun t' => t'.keyText = k.name) = 1

theorem Plain.declares (hp : Plain tokens) (ha : Accepted tokens params) (k : ConfigKey) :
    ∃ t, Declares tokens params k t := by
  obtain ⟨t, ht, value, hfields, henters, hread, honly⟩ := ha.token k
  have hloads : t.loads k = some value := Token.loads_eq_some.mpr ⟨hfields, henters⟩
  have hcut : (k.name, value) = (t.keyText, t.valueText) :=
    t.fields_of_count hfields (hp.single t ht k (by simp [hloads]))
  obtain ⟨hkey, rfl⟩ := Prod.mk.inj hcut
  have honce : tokens.countP (fun t' => t'.keyText = k.name) = 1 := by
    have hpos : 0 < tokens.countP fun t' => t'.keyText = k.name :=
      List.countP_pos_iff.mpr ⟨t, ht, by simp [hkey]⟩
    have hle : tokens.countP (fun t' => t'.keyText = k.name) ≤ 1 := by
      cases hk : k.recognised with
      | some v => exact hp.once k (by simp [hk])
      | none =>
        obtain ⟨v, hv, -⟩ := ha.value k
        have hlength : (tokens.filterMap (Token.loads · k)).length = 1 := by
          rw [show tokens.filterMap (Token.loads · k) = [v] from hv]
          rfl
        rw [← hlength]
        refine countP_le_filterMap fun t' ht' hkey' => ?_
        have hkey' : t'.keyText = k.name := by simpa using hkey'
        obtain ⟨x, hx⟩ := ha.fields t' ht'
        simp [Token.loads_of_number hx hkey' hk]
    omega
  refine ⟨t, ht, hkey.symm, by rw [hfields, hkey], henters, hread, fun t' ht' hkey' => ?_, honce⟩
  exact eq_of_countP_eq_one honce ht' ht (by simp [hkey']) (by simp [hkey])

/-- What is accepted and plain is sound. -/
theorem Plain.sound (hp : Plain tokens) (ha : Accepted tokens params)
    (hrange : ∀ t ∈ tokens, t.InRange) : Sound tokens params := by
  refine ⟨fun k => ?_, fun k hk t ht hkey => ?_, fun t ht hkey => ?_, fun k v hk t ht hkey => ?_⟩
  · obtain ⟨t, h⟩ := hp.declares ha k
    exact h.once
  · obtain ⟨t', h⟩ := hp.declares ha k
    obtain rfl := h.only t ht hkey
    refine decimal_eq_of_read hk h.read (hp.digits k hk t ht hkey) (hrange t ht _ h.fields).2 ?_
    rintro rfl
    exact hp.small t ht hkey
  · obtain ⟨t', h⟩ := hp.declares ha .programNumber
    obtain rfl := h.only t ht hkey
    obtain ⟨-, -, heq⟩ := decimal_eq_of_read rfl h.read (hp.digits .programNumber rfl t ht hkey)
      (hrange t ht _ h.fields).2 fun _ => hp.small t ht hkey
    rw [heq]
    exact (read_programNumber h.read).2
  · obtain ⟨t', h⟩ := hp.declares ha k
    obtain rfl := h.only t ht hkey
    exact h.enters v hk

/-- **The parameters of an accepted file are what the file says exactly when it is plain.** -/
theorem sound_iff (hrange : ∀ t ∈ tokens, t.InRange)
    (h : parseConfigFile opens closes tokens params₀ = .ok params) :
    Sound tokens params ↔ Plain tokens := by
  have ha : Accepted tokens params := accepted_of_parseConfigFile h
  exact ⟨fun hs => hs.plain ha, fun hp => hp.sound ha hrange⟩

/-- **The rest of the zapper may rely on the types** of an accepted file. -/
theorem knownTypes_of_parseConfigFile
    (h : parseConfigFile opens closes tokens params₀ = .ok params) :
    params.KnownTypes ∧ 1 ≤ params.programNumber ∧ params.programNumber ≤ 7 := by
  have ha : Accepted tokens params := accepted_of_parseConfigFile h
  obtain ⟨audio, -, haudio⟩ := ha.value .audioType
  obtain ⟨video, -, hvideo⟩ := ha.value .videoType
  obtain ⟨number, -, hnumber⟩ := ha.value .programNumber
  exact ⟨⟨(Except.ok.inj haudio).symm, (Except.ok.inj hvideo).symm⟩,
    (read_programNumber hnumber).2⟩

/-! ### The configuration of the repository -/

theorem noSpace_of_all {text : List Char} (h : (text.all fun c => !isSpace c) = true) :
    ∀ c ∈ text, isSpace c = false := by
  simpa using h

/-- `config.ini`, with the line for the program number left open. -/
def iniFile (line : Token) : List Token :=
  [⟨"frequency=754000000".toList, by decide, noSpace_of_all (by decide), by decide⟩,
    ⟨"bandwidth=8".toList, by decide, noSpace_of_all (by decide), by decide⟩,
    ⟨"modulation=DVB_T".toList, by decide, noSpace_of_all (by decide), by decide⟩,
    ⟨"audio_pid=1003".toList, by decide, noSpace_of_all (by decide), by decide⟩,
    ⟨"video_pid=1001".toList, by decide, noSpace_of_all (by decide), by decide⟩,
    ⟨"audio_type=AUDIO_TYPE_MPEG_AUDIO".toList, by decide, noSpace_of_all (by decide), by decide⟩,
    ⟨"video_type=VIDEO_TYPE_MPEG2".toList, by decide, noSpace_of_all (by decide), by decide⟩, line]

/-- The line of the repository. -/
def thirdLine : Token :=
  ⟨"program_number=3".toList, by decide, noSpace_of_all (by decide), by decide⟩

/-- A number that does not fit its field. -/
def wideLine : Token :=
  ⟨"program_number=257".toList, by decide, noSpace_of_all (by decide), by decide⟩

theorem plain_iniFile : Plain (iniFile thirdLine) := by
  have hkeys : ∀ k ∈ ConfigKey.all,
      (∀ t ∈ iniFile thirdLine, (t.loads k).isSome = true → t.text.count '=' = 1) ∧
        (k.recognised.isSome = true →
          (iniFile thirdLine).countP (fun t => t.keyText = k.name) ≤ 1) ∧
        (k.recognised = none → ∀ t ∈ iniFile thirdLine, t.keyText = k.name →
          t.valueText.all Char.isDigit = true) := by
    decide +kernel
  refine ⟨fun t ht k => (hkeys k k.mem_all).1 t ht, fun k => (hkeys k k.mem_all).2.1,
    fun k hk t ht hkey => List.all_eq_true.mp ((hkeys k k.mem_all).2.2 hk t ht hkey), ?_⟩
  decide +kernel

theorem sound_iniFile : ∃ params, params.programNumber = 3 ∧ Sound (iniFile thirdLine) params ∧
    parseConfigFile true true (iniFile thirdLine) ⟨configIni 0, 1⟩ = .ok params := by
  have hrun : (parseConfigFile true true (iniFile thirdLine) ⟨configIni 0, 1⟩).toOption.map
      (fun p => p.programNumber) = some 3 := by decide +kernel
  cases hp : parseConfigFile true true (iniFile thirdLine) ⟨configIni 0, 1⟩ with
  | error e => simp [hp, Except.toOption] at hrun
  | ok params =>
    exact ⟨params, by simpa [hp, Except.toOption] using hrun,
      (sound_iff (by decide +kernel) hp).mpr plain_iniFile, rfl⟩

/-- The program number 257 is narrowed to 1 before it is checked. -/
theorem not_forall_sound : ¬ ∀ (opens closes : Bool) (tokens : List Token)
    (params₀ params : FileParams), (∀ t ∈ tokens, t.InRange) →
      parseConfigFile opens closes tokens params₀ = .ok params → Sound tokens params := by
  intro h
  have hrun : (parseConfigFile true true (iniFile wideLine) ⟨configIni 0, 1⟩).toOption.isSome =
      true := by decide +kernel
  cases hp : parseConfigFile true true (iniFile wideLine) ⟨configIni 0, 1⟩ with
  | error e => simp [hp, Except.toOption] at hrun
  | ok params =>
    have hs := h true true _ _ params (by decide +kernel) hp
    have hle := (hs.inRange wideLine (by simp [iniFile]) (by decide +kernel)).2
    exact absurd hle (by decide +kernel)

end Zapper
