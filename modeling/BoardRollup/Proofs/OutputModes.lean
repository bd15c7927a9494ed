import BoardRollup.Output.Mode
import BoardRollup.Proofs.TrimmedTexts

/-!
# Two readings of the environment

Settings come with the name of a mode: it is settled from the short flag, the environment, the
setting of the user and the terminal, with names between blanks and older names allowed. The mode
of a result is then resolved once more, from the flag that names a mode, this name, and only
without settings from the short flag and the environment. The second resolution knows no names but
the modes' own, and while settings cannot be read it meets the environment as it was written.

So the two agree unless the environment asks for a mode by a name that is not the mode's own, and
the terminal would have another mode.
-/

namespace BoardRollup

namespace OutputMode

/-- The name of the mode that settings come with when they are read. -/
def settledName (request : Request) (userOutput : Option String) : String :=
  if request.json then json.name
  else match request.environment.bind ofSetting? with
    | some mode => mode.name
    | none => match userOutput.bind ofSetting? with
      | some mode => mode.name
      | none => (unasked request.terminal).name

/-- The mode of a result, from the name that settings came with if they could be read. -/
def resolve (request : Request) (settled : Option String) : OutputMode :=
  match request.format with
  | some mode => mode
  | none => match settled.bind fun name => ofName? (lower name) with
    | some mode => mode
    | none =>
      if request.json then json
      else match request.environment.bind fun raw => ofName? (lower raw) with
        | some mode => mode
        | none => unasked request.terminal

theorem lower_name (mode : OutputMode) : lower mode.name = mode.name := by
  cases mode <;> rfl

/-- Settings that were read come with the name of the mode that is settled. -/
theorem settledName_eq (request : Request) (userOutput : Option String) :
    settledName request userOutput = (settle { request with format := none } userOutput).name := by
  unfold settledName settle
  cases request.json with
  | true => rfl
  | false =>
    cases request.environment.bind ofSetting? with
    | some mode => rfl
    | none => cases userOutput.bind ofSetting? <;> rfl

theorem settle_eq_resolve (request : Request) (userOutput : Option String) :
    settle request userOutput = resolve request (some (settledName request userOutput)) := by
  rw [settledName_eq, resolve, Option.bind_some, lower_name, ofName?_name]
  unfold settle
  cases request.format <;> rfl

theorem settleWithoutSettings_eq_resolve (request : Request) :
    settleWithoutSettings request = resolve request none := by
  unfold settleWithoutSettings resolve
  cases request.format with
  | some mode => rfl
  | none => cases request.environment.bind fun raw => ofName? (lower raw) <;> rfl

/-- The names that a setting may give a mode: its own, or an older one. -/
inductive Names : String → OutputMode → Prop where
  | own (mode : OutputMode) : Names mode.name mode
  | human : Names "human" pretty
  | table : Names "table" text

/-- What stands between the blanks of a text is a name of a mode, in any case. -/
def Asks (raw : String) (mode : OutputMode) : Prop :=
  ∃ body, TrimsTo raw.toList body ∧ Names (lower (.ofList body)) mode

theorem ofName?_eq_some_iff {name : String} {mode : OutputMode} :
    ofName? name = some mode ↔ name = mode.name := by
  constructor
  · intro found
    unfold ofName? at found
    split at found <;> cases found <;> rfl
  · rintro rfl
    exact ofName?_name mode

theorem ofSetting?_eq_some_iff {raw : String} {mode : OutputMode} :
    ofSetting? raw = some mode ↔ Asks raw mode := by
  have named : ofSetting? raw = some mode ↔ Names (lower (trimText raw)) mode := by
    rw [ofSetting?]
    generalize lower (trimText raw) = name
    constructor
    · intro found
      split at found
      · cases found
        exact .human
      · cases found
        exact .table
      · rw [ofName?_eq_some_iff.mp found]
        exact .own mode
    · intro name
      cases name with
      | own mode => cases mode <;> rfl
      | human => rfl
      | table => rfl
  rw [named]
  constructor
  · exact fun name => ⟨_, trimsTo_trimBlanks _, name⟩
  · rintro ⟨body, trimmed, name⟩
    rwa [trimText, trimmed.trimBlanks_eq]

/-- A letter is no blank, and nothing else changes its case. -/
theorem toLower_of_isBlank {c : Char} (blank : isBlank c = true) : c.toLower = c := by
  unfold Char.toLower
  split
  · next upper =>
    have least : 65 ≤ c.toNat := upper.1
    have most : c.toNat ≤ 90 := upper.2
    simp only [isBlank, Bool.or_eq_true, Bool.and_eq_true, decide_eq_true_eq] at blank
    omega
  · rfl

/-- A mode's own name asks for the mode: there is no blank in it that trimming could take. -/
theorem asks_of_name {raw : String} {mode : OutputMode} (own : lower raw = mode.name) :
    Asks raw mode := by
  have letters : mode.name.toList.all (!isBlank ·) = true := by
    cases mode <;> rfl
  have shown : ∀ c ∈ raw.toList, isBlank c = false := by
    intro c mem
    rw [← Bool.not_eq_true]
    intro blank
    have written : c ∈ mode.name.toList := by
      rw [← own, lower, String.toList_ofList, ← toLower_of_isBlank blank]
      exact List.mem_map_of_mem mem
    have letter := List.all_eq_true.mp letters c written
    rw [blank] at letter
    cases letter
  refine ⟨raw.toList, trimBlanks_eq_iff.mp (trimBlanks_of_shown shown), ?_⟩
  rw [String.ofList_toList, own]
  exact .own mode

/-- The stricter reading of a text agrees with the other unless the text asks for a mode by another
name than its own. -/
theorem getD_ofName?_eq_iff {raw : String} {unasked : OutputMode} :
    (ofName? (lower raw)).getD unasked = (ofSetting? raw).getD unasked ↔
      ∀ mode, Asks raw mode → lower raw = mode.name ∨ mode = unasked := by
  simp only [← ofSetting?_eq_some_iff]
  cases strict : ofName? (lower raw) with
  | some mode =>
    have own := ofName?_eq_some_iff.mp strict
    rw [ofSetting?_eq_some_iff.mpr (asks_of_name own)]
    refine iff_of_true rfl ?_
    rintro _ ⟨⟩
    exact .inl own
  | none =>
    have other (mode : OutputMode) : lower raw ≠ mode.name := by
      intro own
      rw [ofName?_eq_some_iff.mpr own] at strict
      cases strict
    cases ofSetting? raw with
    | none => exact iff_of_true rfl nofun
    | some mode => simp [other, eq_comm]

/-- The two resolutions settle on the same mode exactly if a flag names one, or if the environment
does not ask for a mode, asks for it by its own name, or asks for the mode of the terminal. -/
theorem settleWithoutSettings_eq_iff (request : Request) :
    settleWithoutSettings request = resolve request none ∧
      settle request none = resolve request (some (settledName request none)) ∧
        (settleWithoutSettings request = settle request none ↔
          request.format.isSome ∨ request.json ∨
            ∀ raw ∈ request.environment, ∀ mode, Asks raw mode →
              lower raw = mode.name ∨ mode = unasked request.terminal) := by
  refine ⟨settleWithoutSettings_eq_resolve request, settle_eq_resolve request none, ?_⟩
  obtain ⟨format, json, environment, terminal⟩ := request
  unfold settleWithoutSettings settle
  cases format with
  | some mode => exact iff_of_true rfl (.inl rfl)
  | none =>
    cases json with
    | true => exact iff_of_true rfl (.inr (.inl rfl))
    | false =>
      cases environment with
      | none => exact iff_of_true rfl (.inr (.inr nofun))
      | some raw =>
        have readings := @getD_ofName?_eq_iff raw (unasked terminal)
        simpa using readings

/-- A name between blanks and an older name are read with the settings only. -/
theorem settleWithoutSettings_departs :
    (settleWithoutSettings ⟨none, false, some " json ", false⟩ = text ∧
      settle ⟨none, false, some " json ", false⟩ none = json) ∧
    (settleWithoutSettings ⟨none, false, some "human", false⟩ = text ∧
      settle ⟨none, false, some "human", false⟩ none = pretty) ∧
    ¬∀ request, resolve request none = resolve request (some (settledName request none)) := by
  refine ⟨⟨rfl, rfl⟩, ⟨rfl, rfl⟩, fun agree => ?_⟩
  have same := agree ⟨none, false, some " json ", false⟩
  exact absurd same (by decide)

end OutputMode

end BoardRollup
