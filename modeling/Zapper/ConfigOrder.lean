import Mathlib.Data.List.Perm.Basic
import Zapper.ConfigParser

/-!
# The order of the lines of the configuration file

The parser stops at the first token that it refuses, and whether it refuses a token depends on the
ones before it. Still the order of the tokens never matters: what a token does is to be refused, to
load a value for a key, or nothing (`Token.effect`), and two such effects commute, because loading
one key twice is refused either way (`after_comm`). So the result code and the stored parameters are
the same for every order of the tokens (`parseConfigFileBy_perm`), whatever function `atoi` is.

It follows that a configuration written to a file is read back (`parseConfigFile_of_written`): the
eight tokens can be put in the order of the keys, with the tokens of unknown keys behind them.
-/

namespace Zapper

open CString

variable (toInt : List Char → ℤ)

/-! ### What a token does -/

/-- What an accepted token does: nothing, or it loads a value for a key. -/
abbrev Effect := Option (ConfigKey × ℕ)

/-- What a token does, if it is not refused whatever the parser has loaded. -/
def Token.effect (t : Token) : Option Effect :=
  t.fields.bind fun x =>
    match ConfigKey.all.find? fun k => x.1 = k.name ∧ k.Enters x.2 with
    | none => some none
    | some k => (k.readBy toInt x.2).toOption.map fun n => some (k, n)

/-- The state behind an effect; a key that has been loaded is refused. -/
def ConfigState.after (c : ConfigState) : Effect → Option ConfigState
  | none => some c
  | some (k, n) => if c.loaded k then none else some (c.load k n)

variable {toInt} {k k' : ConfigKey} {c c' : ConfigState} {t : Token} {tokens tokens' : List Token}
  {param value : List Char} {n m : ℕ} {params₀ params config : FileParams} {opens closes : Bool}

/-- Two steps of the parser, with the messages forgotten. -/
theorem toOption_bind {α β : Type} (x : Except String α) (f : α → Except String β) :
    (x >>= f).toOption = x.toOption.bind fun a => (f a).toOption := by
  cases x <;> rfl

theorem toOption_map {α β : Type} (x : Except String α) (f : α → β) :
    (x.map f).toOption = x.toOption.map f := by
  cases x <;> rfl

/-- Branches that are not entered do nothing. -/
theorem foldlM_branchBy_of_not_enters {ks : List ConfigKey}
    (h : ∀ k ∈ ks, ¬ (param = k.name ∧ k.Enters value)) :
    ks.foldlM (fun c (k : ConfigKey) => k.branchBy toInt param value c) c = .ok c := by
  induction ks with
  | nil => rfl
  | cons k ks ih =>
    rw [List.foldlM_cons, ConfigKey.branchBy, if_neg (h k (by simp))]
    exact ih fun k' hk' => h k' (by simp [hk'])

/-- The branches for a token: the first one that is entered is the only one. -/
theorem toOption_foldlM_branchBy {ks : List ConfigKey} (hks : ks.Nodup) :
    (ks.foldlM (fun c (k : ConfigKey) => k.branchBy toInt param value c) c).toOption =
      match ks.find? fun k => param = k.name ∧ k.Enters value with
      | none => some c
      | some k => if c.loaded k then none else (k.readBy toInt value).toOption.map (c.load k) := by
  induction ks with
  | nil => rfl
  | cons k ks ih =>
    obtain ⟨hk, hks⟩ := List.nodup_cons.mp hks
    rw [List.foldlM_cons, toOption_bind]
    by_cases henters : param = k.name ∧ k.Enters value
    · -- no other key has this name
      have hrest : ∀ k' ∈ ks, ¬ (param = k'.name ∧ k'.Enters value) := by
        rintro k' hk' ⟨hp, -⟩
        obtain rfl := ConfigKey.name_inj (henters.1.symm.trans hp)
        exact hk hk'
      simp only [foldlM_branchBy_of_not_enters hrest]
      rw [List.find?_cons_of_pos (by simpa using henters), ConfigKey.branchBy, if_pos henters]
      by_cases hloaded : c.loaded k
      · simp [hloaded, Except.toOption]
      · simp only [hloaded, Bool.false_eq_true, if_false, toOption_map]
        cases (k.readBy toInt value).toOption <;> rfl
    · rw [List.find?_cons_of_neg (by simpa using henters), ConfigKey.branchBy, if_neg henters]
      exact ih hks

/-- **A token has its effect.** -/
theorem toOption_parseTokenBy (c : ConfigState) (t : Token) :
    (parseTokenBy toInt c t).toOption = (t.effect toInt).bind c.after := by
  unfold parseTokenBy Token.effect
  cases t.fields with
  | none => rfl
  | some x =>
    obtain ⟨param, value⟩ := x
    rw [Option.bind_some, toOption_foldlM_branchBy ConfigKey.nodup_all]
    cases ConfigKey.all.find? fun k => param = k.name ∧ k.Enters value with
    | none => rfl
    | some k =>
      cases hread : (k.readBy toInt value).toOption with
      | none => simp [hread]
      | some n =>
        simp only [hread, Option.map_some, Option.bind_some, ConfigState.after]

/-! ### The order of the tokens -/

theorem ConfigKey.set_comm (h : k ≠ k') (n m : ℕ) (p : FileParams) :
    k.set n (k'.set m p) = k'.set m (k.set n p) := by
  cases k <;> cases k' <;> first | rfl | exact absurd rfl h

theorem ConfigState.load_comm (h : k ≠ k') (c : ConfigState) :
    (c.load k n).load k' m = (c.load k' m).load k n := by
  unfold load
  refine congrArg₂ ConfigState.mk (ConfigKey.set_comm h.symm m n c.params) (funext fun k₁ => ?_)
  exact Bool.or_left_comm _ _ _

/-- **Effects commute.** -/
theorem after_comm (c : ConfigState) (e e' : Effect) :
    (c.after e).bind (·.after e') = (c.after e').bind (·.after e) := by
  obtain _ | ⟨k, n⟩ := e
  · simp [ConfigState.after]
  obtain _ | ⟨k', m⟩ := e'
  · simp [ConfigState.after]
  by_cases hk : k = k'
  · -- the second one is refused, if not the first
    subst hk
    by_cases hloaded : c.loaded k <;> simp [ConfigState.after, ConfigState.load, hloaded]
  · have hload : ∀ (k₁ k₂ : ConfigKey) (i : ℕ), k₁ ≠ k₂ →
        (c.load k₁ i).loaded k₂ = c.loaded k₂ := by
      intro k₁ k₂ i hne
      simp [ConfigState.load, hne.symm]
    by_cases h : c.loaded k <;> by_cases h' : c.loaded k' <;>
      simp [ConfigState.after, h, h', hload, hk, Ne.symm hk, ConfigState.load_comm hk]

/-- The state behind a token, if it is not refused. -/
def afterToken (toInt : List Char → ℤ) (o : Option ConfigState) (t : Token) :
    Option ConfigState :=
  o.bind fun c => (t.effect toInt).bind c.after

/-- The parser goes from effect to effect. -/
theorem toOption_foldlM_parseTokenBy (tokens : List Token) (c : ConfigState) :
    (tokens.foldlM (parseTokenBy toInt) c).toOption =
      tokens.foldl (afterToken toInt) (some c) := by
  have hnone : ∀ tokens : List Token, tokens.foldl (afterToken toInt) none = none := by
    intro tokens
    induction tokens with
    | nil => rfl
    | cons t tokens ih => exact ih
  induction tokens generalizing c with
  | nil => rfl
  | cons t tokens ih =>
    rw [List.foldlM_cons, toOption_bind, toOption_parseTokenBy, List.foldl_cons, afterToken,
      Option.bind_some]
    cases (t.effect toInt).bind c.after with
    | none => exact (hnone tokens).symm
    | some c' => exact ih c'

/-- **The order of the tokens does not matter**, whatever state the parser is in. -/
theorem foldl_afterToken_perm (h : tokens.Perm tokens') (o : Option ConfigState) :
    tokens.foldl (afterToken toInt) o = tokens'.foldl (afterToken toInt) o := by
  refine h.foldl_eq' (fun t _ t' _ o => ?_) o
  unfold afterToken
  cases o with
  | none => rfl
  | some c =>
    cases t.effect toInt with
    | none => cases t'.effect toInt <;> simp
    | some e =>
      cases t'.effect toInt with
      | none => simp
      | some e' => exact after_comm c e e'

/-- What the parser returns, with the messages forgotten. -/
theorem toOption_parseConfigFileBy (opens closes : Bool) (tokens : List Token)
    (params : FileParams) :
    (parseConfigFileBy toInt opens closes tokens params).toOption =
      if opens then
        (tokens.foldl (afterToken toInt) (some ⟨params, fun _ => false⟩)).bind fun c =>
          if closes = true ∧ (ConfigKey.all.map fun k => (c.loaded k).toNat).sum % 2 ^ 8 = 8 then
            some c.params
          else none
      else none := by
  rw [← toOption_foldlM_parseTokenBy, parseConfigFileBy]
  cases opens with
  | false => rfl
  | true =>
    cases tokens.foldlM (parseTokenBy toInt) ⟨params, fun _ => false⟩ with
    | error e => rfl
    | ok c =>
      cases closes with
      | false => rfl
      | true =>
        simp only [if_true, apply_ite Except.toOption, true_and]
        rfl

/-- **The order of the lines of the configuration file never matters**: the result code and, if it
is `NO_ERROR`, the parameters are the same. -/
theorem parseConfigFileBy_perm (toInt : List Char → ℤ) (opens closes : Bool)
    (params : FileParams) (h : tokens.Perm tokens') :
    (parseConfigFileBy toInt opens closes tokens params).toOption =
      (parseConfigFileBy toInt opens closes tokens' params).toOption := by
  rw [toOption_parseConfigFileBy, toOption_parseConfigFileBy, foldl_afterToken_perm h]

theorem parseConfigFileBy_perm_iniFile :
    (parseConfigFileBy atoi true true (iniFile thirdLine) ⟨configIni 0, 1⟩).toOption =
      (parseConfigFileBy atoi true true (iniFile thirdLine).reverse ⟨configIni 0, 1⟩).toOption :=
  parseConfigFileBy_perm atoi true true _ (List.reverse_perm _).symm

/-! ### Writing a configuration -/

/-- A configuration that a file can give. -/
structure FileParams.Valid (config : FileParams) : Prop where
  number : ∀ k : ConfigKey, k.recognised = none → 1 ≤ k.get config ∧ k.get config < 2 ^ 31
  program : config.programNumber ≤ 7
  modulation : config.modulation = 0
  audioType : config.audioType = 10
  videoType : config.videoType = 42

/-- The token gives a key the value that it has in the configuration: the recognised one, or the
number in decimal. -/
def Token.Writes (t : Token) (config : FileParams) (k : ConfigKey) : Prop :=
  ∃ value, t.text = k.name ++ '=' :: value ∧ k.Enters value ∧
    (k.recognised = none → IsDecimal value ∧ decimal value = k.get config)

/-- A token with a key that is not one of the eight, and a value. -/
structure Token.Unknown (t : Token) : Prop where
  key : t.keyText ≠ []
  unknown : ∀ k : ConfigKey, t.keyText ≠ k.name
  value : ∃ c ∈ t.valueText, c ≠ '='

/-- The file gives the configuration: one token for each key, and tokens of unknown keys, in any
order. -/
def Written (config : FileParams) (tokens : List Token) : Prop :=
  ∃ (line : ConfigKey → Token) (others : List Token), (∀ k, (line k).Writes config k) ∧
    (∀ t ∈ others, t.Unknown) ∧ tokens.Perm (ConfigKey.all.map line ++ others)

/-- A number in its usual decimal form. -/
theorem Token.writes_of_toDigits (hk : k.recognised = none)
    (h : t.text = k.name ++ '=' :: Nat.toDigits 10 (k.get config)) : t.Writes config k :=
  ⟨_, h, by simp [ConfigKey.Enters, hk], fun _ => ⟨isDecimal_toDigits _, decimal_toDigits _⟩⟩

theorem ConfigKey.find?_name (k : ConfigKey) (henters : k.Enters value) :
    all.find? (fun k' => k.name = k'.name ∧ k'.Enters value) = some k := by
  have hsome : (all.find? fun k' => k.name = k'.name ∧ k'.Enters value).isSome = true :=
    List.find?_isSome.mpr ⟨k, k.mem_all, by simpa using henters⟩
  obtain ⟨k', hk'⟩ := Option.isSome_iff_exists.mp hsome
  have hname : k.name = k'.name ∧ k'.Enters value := by simpa using List.find?_some hk'
  rw [hk', name_inj hname.1]

/-- A token of an unknown key does nothing. -/
theorem Token.Unknown.effect (h : t.Unknown) : t.effect toInt = some none := by
  obtain ⟨c, hc, hne⟩ := h.value
  have hdrop : t.valueText.dropWhile (· == '=') ≠ [] := by
    intro hnil
    have hall := List.dropWhile_eq_nil_iff.mp hnil c hc
    exact hne (by simpa using hall)
  have hnone : ∀ value, ConfigKey.all.find? (fun k => t.keyText = k.name ∧ k.Enters value) =
      none := fun value =>
    List.find?_eq_none.mpr fun k _ => by simp [h.unknown k]
  rw [Token.effect, t.fields_of_key h.key, strtok_of_dropWhile hdrop, Option.map_some,
    Option.bind_some, hnone]

/-- A decimal number that is not zero and fits its field is read as it is written. -/
theorem readNumberBy_of_isDecimal (h : IsDecimal value) (hpos : 0 < decimal value)
    (hlt : decimal value < 2 ^ k.bits) : k.readNumberBy atoi value = .ok (decimal value) := by
  have hmod : (atoi value % 2 ^ k.bits).toNat = decimal value := by
    rw [atoi_of_isDecimal h, Int.emod_eq_of_lt (by omega) (by exact_mod_cast hlt),
      Int.toNat_natCast]
  simp only [ConfigKey.readNumberBy, hmod]
  rw [if_neg hpos.ne']

/-- The value of a written token is one that the branch of the key takes, and it is read back. -/
theorem readBy_of_writes (hp : config.Valid) (henters : k.Enters value)
    (hnumber : k.recognised = none → IsDecimal value ∧ decimal value = k.get config) :
    value ≠ [] ∧ '=' ∉ value ∧ k.readBy atoi value = .ok (k.get config) := by
  cases hk : k.recognised with
  | some v =>
    obtain rfl := henters v hk
    refine ⟨?_, ?_, ?_⟩
    · cases k <;> cases hk <;> decide
    · cases k <;> cases hk <;> decide
    · cases k with
      | modulation => exact congrArg _ hp.modulation.symm
      | audioType => exact congrArg _ hp.audioType.symm
      | videoType => exact congrArg _ hp.videoType.symm
      | _ => cases hk
  | none =>
    obtain ⟨hdecimal, heq⟩ := hnumber hk
    obtain ⟨hpos, hlt⟩ := hp.number k hk
    refine ⟨hdecimal.1, fun hmem => absurd (hdecimal.2 _ hmem) (by decide), ?_⟩
    have hread : k.bits = 32 ∨ decimal value < 2 ^ k.bits → k.readNumberBy atoi value =
        .ok (k.get config) := by
      intro hbits
      rw [← heq]
      refine readNumberBy_of_isDecimal hdecimal (by omega) ?_
      obtain hbits | hbits := hbits
      · rw [hbits]
        omega
      · exact hbits
    cases k with
    | modulation | audioType | videoType => cases hk
    | programNumber =>
      have hle : config.programNumber ≤ 7 := hp.program
      have hget : ConfigKey.programNumber.get config = config.programNumber := rfl
      simp only [ConfigKey.readBy, hread (.inr (by rw [heq, hget, ConfigKey.bits]; omega))]
      rw [if_neg (by omega)]
    | _ => exact hread (.inl rfl)

/-- **A written token loads the value that it gives.** -/
theorem Token.Writes.effect (hp : config.Valid) (h : t.Writes config k) :
    t.effect atoi = some (some (k, k.get config)) := by
  obtain ⟨value, htext, henters, hnumber⟩ := h
  obtain ⟨hne, hmem, hread⟩ := readBy_of_writes hp henters hnumber
  have hname : ∀ c ∈ k.name, (c != '=') = true :=
    List.all_eq_true.mp (by cases k <;> decide)
  have hkey : t.keyText = k.name := by
    rw [keyText, htext, List.takeWhile_append_of_pos hname]
    simp
  have hvalue : t.valueText = value := by
    rw [valueText, htext, List.dropWhile_append_of_pos hname]
    simp
  rw [Token.effect, t.fields_of_key (hkey ▸ k.name_ne_nil), hkey, hvalue,
    strtok_of_not_mem hne hmem, Option.map_some, Option.bind_some]
  simp only [k.find?_name henters, hread]
  rfl

/-- The tokens of some keys, none of which has been loaded, load these keys. -/
theorem foldl_afterToken_map (hp : config.Valid) {line : ConfigKey → Token}
    (hline : ∀ k, (line k).Writes config k) {ks : List ConfigKey} (hks : ks.Nodup)
    (hc : ∀ k ∈ ks, c.loaded k = false) :
    (ks.map line).foldl (afterToken atoi) (some c) =
      some (ks.foldl (fun c k => c.load k (k.get config)) c) := by
  induction ks generalizing c with
  | nil => rfl
  | cons k ks ih =>
    obtain ⟨hk, hks⟩ := List.nodup_cons.mp hks
    have hload : afterToken atoi (some c) (line k) = some (c.load k (k.get config)) := by
      simp [afterToken, (hline k).effect hp, ConfigState.after, hc k (by simp)]
    rw [List.map_cons, List.foldl_cons, hload, List.foldl_cons]
    refine ih hks fun k' hk' => ?_
    have hne : k' ≠ k := fun heq => hk (heq ▸ hk')
    simp [ConfigState.load, hne, hc k' (by simp [hk'])]

/-- The flags behind the loading of some keys. -/
theorem loaded_foldl_load (ks : List ConfigKey) (c : ConfigState) :
    (ks.foldl (fun c k => c.load k (k.get config)) c).loaded k' = true ↔
      k' ∈ ks ∨ c.loaded k' = true := by
  induction ks generalizing c with
  | nil => simp
  | cons k ks ih =>
    rw [List.foldl_cons, ih, List.mem_cons, or_assoc, or_left_comm]
    simp [ConfigState.load]

/-- Behind all keys, the parameters are those of the configuration, and all flags are set. -/
theorem foldl_load_all (config : FileParams) (c : ConfigState) :
    ConfigKey.all.foldl (fun c k => c.load k (k.get config)) c = ⟨config, fun _ => true⟩ := by
  have hparams : (ConfigKey.all.foldl (fun c k => c.load k (k.get config)) c).params = config := by
    simp only [ConfigKey.all, List.foldl_cons, List.foldl_nil, ConfigState.load, ConfigKey.set,
      ConfigKey.get]
  exact congrArg₂ ConfigState.mk hparams
    (funext fun k => (loaded_foldl_load _ c).mpr (.inl k.mem_all))

/-- The tokens of unknown keys do nothing. -/
theorem foldl_afterToken_unknown {others : List Token} (h : ∀ t ∈ others, t.Unknown)
    (c : ConfigState) : others.foldl (afterToken toInt) (some c) = some c := by
  induction others with
  | nil => rfl
  | cons t others ih =>
    have hnothing : afterToken toInt (some c) t = some c := by
      simp [afterToken, (h t (by simp)).effect, ConfigState.after]
    rw [List.foldl_cons, hnothing]
    exact ih fun t' ht' => h t' (by simp [ht'])

/-- **A configuration that is written to a file is read back**, whatever the order of the lines and
the tokens of unknown keys among them. -/
theorem parseConfigFile_of_written (hp : config.Valid) (h : Written config tokens)
    (params₀ : FileParams) : parseConfigFile true true tokens params₀ = .ok config := by
  obtain ⟨line, others, hline, hothers, hperm⟩ := h
  have hfold : tokens.foldl (afterToken atoi) (some ⟨params₀, fun _ => false⟩) =
      some ⟨config, fun _ => true⟩ := by
    rw [foldl_afterToken_perm hperm, List.foldl_append,
      foldl_afterToken_map hp hline ConfigKey.nodup_all fun _ _ => rfl, foldl_load_all,
      foldl_afterToken_unknown hothers]
  have hresult : (parseConfigFile true true tokens params₀).toOption = some config := by
    rw [parseConfigFile, toOption_parseConfigFileBy, hfold]
    rfl
  cases hparse : parseConfigFile true true tokens params₀ with
  | error e => simp [hparse, Except.toOption] at hresult
  | ok params =>
    rw [hparse] at hresult
    exact congrArg _ (Option.some.inj hresult)

/-- A line that the parser does not know. -/
def unknownLine : Token :=
  ⟨"symbol_rate=6875".toList, by decide, noSpace_of_all (by decide), by decide⟩

/-- The line of a key in the file of the repository. -/
def iniLine (k : ConfigKey) : Token :=
  ((iniFile thirdLine).find? fun t => t.keyText = k.name).getD thirdLine

theorem iniLine_writes (k : ConfigKey) : (iniLine k).Writes ⟨configIni 3, 0⟩ k := by
  have hall : ∀ k ∈ ConfigKey.all, (iniLine k).text = k.name ++ '=' :: (iniLine k).valueText ∧
      k.Enters (iniLine k).valueText ∧ (k.recognised = none →
        IsDecimal (iniLine k).valueText ∧
          decimal (iniLine k).valueText = k.get ⟨configIni 3, 0⟩) := by decide +kernel
  exact ⟨_, hall k k.mem_all⟩

/-- The file of the repository from the last line to the first, and an unknown line. -/
theorem parseConfigFile_of_written_iniFile :
    parseConfigFile true true (unknownLine :: (iniFile thirdLine).reverse) ⟨configIni 0, 1⟩ =
      .ok ⟨configIni 3, 0⟩ := by
  have hvalid : FileParams.Valid ⟨configIni 3, 0⟩ := by
    refine ⟨fun k => ?_, by decide, rfl, rfl, rfl⟩
    cases k <;> decide
  have hunknown : unknownLine.Unknown :=
    ⟨by decide +kernel, fun k => by cases k <;> decide +kernel, '6', by decide +kernel,
      by decide⟩
  have hlines : ConfigKey.all.map iniLine = iniFile thirdLine := by rfl
  refine parseConfigFile_of_written hvalid ⟨iniLine, [unknownLine], iniLine_writes, by
    simpa using hunknown, ?_⟩ _
  rw [hlines]
  exact ((List.perm_append_singleton _ _).trans ((List.reverse_perm _).symm.cons _)).symm

end Zapper
