import FPayNode.CerealJson
import FPayNode.RootTransaction

/-!
Whether transactions handled one at a time keep balances from becoming
negative and from being taken by somebody else. The only guard is one signed
comparison, so the answer depends on the sign of the amount.
-/

namespace FPayNode.BalanceSafety

open CommandProgram DecimalText RedisServer RedisCache Messages NodeService RootTransaction

/-- No account is negative, and only the sender's account has become smaller. -/
def Unharmed (config : Config) (before after : Db) (tx : Transaction) : Prop :=
  (∀ account, account ∉ controlKeys config → 0 ≤ balanceOf after account) ∧
    ∀ account, account ∉ controlKeys config → account ≠ tx._from →
      balanceOf before account ≤ balanceOf after account

/-- The call is refused, or the amount is not negative, or a negative amount
comes back to the sender. The least amount is its own negation. -/
def Harmless (tx : Transaction) : Prop :=
  tx._from = [] ∨ 0 ≤ tx._value.toInt ∨
    (tx._value ≠ Int64.minValue ∧ (tx._to = tx._from ∨ tx._to = []))

instance (tx : Transaction) : Decidable (Harmless tx) := inferInstanceAs (Decidable (_ ∨ _))

def NonNegative (config : Config) (db : Db) : Prop :=
  ∀ account, account ∉ controlKeys config → 0 ≤ balanceOf db account

section Step
variable (config : Config) (cereal : Cereal) (db : Db) (tx : Transaction)

theorem positive_unharmed (accepted : tx._from ≠ [] → Accepted config cereal tx db)
    (before : NonNegative config db) (positive : 0 ≤ tx._value.toInt) :
    Unharmed config db (handled config cereal db tx) tx := by
  have negated : (-tx._value).toInt = -tx._value.toInt := by
    apply toInt_neg
    rintro least
    rw [least] at positive
    exact absurd positive (by decide)
  constructor
  · intro account plain
    have start := before account plain
    rw [handled_balance config cereal db tx accepted, negated]
    by_cases same : account = tx._from
    · subst account
      simp only [Covered]
      split_ifs <;> omega
    · simp only [same, ↓reduceIte]
      split_ifs <;> omega
  · intro account plain different
    rw [handled_balance config cereal db tx accepted]
    simp only [different, ↓reduceIte]
    split_ifs <;> omega

theorem returned_unharmed (accepted : tx._from ≠ [] → Accepted config cereal tx db)
    (before : NonNegative config db) (negative : tx._value.toInt < 0)
    (exact : tx._value ≠ Int64.minValue) (back : tx._to = tx._from ∨ tx._to = []) :
    Unharmed config db (handled config cereal db tx) tx := by
  have negated := toInt_neg tx._value exact
  constructor
  · intro account plain
    have start := before account plain
    rw [handled_balance config cereal db tx accepted, negated]
    rcases back with same | nowhere
    · rw [same]
      by_cases mine : account = tx._from
      · subst mine
        by_cases unknown : tx._from = []
        · simpa [unknown] using start
        · simpa [unknown] using start
      · simpa [mine] using start
    · simp only [nowhere, ne_eq, not_true_eq_false, false_and, ↓reduceIte]
      split_ifs <;> omega
  · intro account plain different
    rw [handled_balance config cereal db tx accepted]
    rcases back with same | nowhere
    · simp [same, different]
    · simp [nowhere, different]

theorem harmless_unharmed (accepted : tx._from ≠ [] → Accepted config cereal tx db)
    (before : NonNegative config db) (harmless : Harmless tx) :
    Unharmed config db (handled config cereal db tx) tx := by
  rcases harmless with refused | positive | ⟨exact, back⟩
  · simp only [handled, refused, ↓reduceIte]
    exact ⟨before, fun _ _ _ => le_rfl⟩
  · exact positive_unharmed config cereal db tx accepted before positive
  · by_cases positive : 0 ≤ tx._value.toInt
    · exact positive_unharmed config cereal db tx accepted before positive
    · exact returned_unharmed config cereal db tx accepted before (by omega) exact back

/-- The other direction: a negative amount passes every check, and either
the sender's own account or the account it names is drained. -/
theorem unharmed_harmless (accepted : tx._from ≠ [] → Accepted config cereal tx db)
    (before : NonNegative config db)
    (sender : tx._from ∉ controlKeys config) (receiver : tx._to ∉ controlKeys config)
    (unharmed : Unharmed config db (handled config cereal db tx) tx) : Harmless tx := by
  by_contra harmful
  simp only [Harmless] at harmful
  push Not at harmful
  obtain ⟨known, negative, drains⟩ := harmful
  have covered : Covered db tx := by
    have start := before tx._from sender
    simp only [Covered]
    omega
  -- The least amount drains the sender's own account, any other the receiver's.
  by_cases least : tx._value = Int64.minValue
  · have after := unharmed.1 tx._from sender
    have bound := (balanceOf_fits db tx._from).2
    have value : tx._value.toInt = -2 ^ 63 := by rw [least]; decide
    have negated : (-tx._value).toInt = -2 ^ 63 := by rw [least]; decide
    rw [handled_balance config cereal db tx accepted, negated, value] at after
    simp only [known, covered, ne_eq, not_false_eq_true, true_and, ↓reduceIte] at after
    split_ifs at after <;> omega
  · obtain ⟨other, named⟩ := drains least
    have after := unharmed.2 tx._to receiver other
    rw [handled_balance config cereal db tx accepted] at after
    simp only [known, covered, other, named, ne_eq, not_false_eq_true, true_and,
      ↓reduceIte] at after
    omega

end Step

section Run
variable (config : Config) (cereal : Cereal) (self : FPService) (throws : Bytes → Bool)

/-- Over every sequence of calls from non-negative balances: the balances
stay unharmed at every call exactly when every transaction is harmless. -/
theorem balances_unharmed_iff (root : self._nodeRole = .root) (lawful : cereal.Lawful)
    (start : Servers) (txs : List Transaction)
    (before : NonNegative config (start config.cacheService))
    (accounts : ∀ tx ∈ txs, tx._from ∉ controlKeys config ∧ tx._to ∉ controlKeys config)
    (succeed : AllSucceed throws start (handleTransaction config cereal self) txs) :
    Throughout (serve throws) (handleTransaction config cereal self)
      (fun servers tx => Unharmed config (servers config.cacheService)
        (after (serve throws) (handleTransaction config cereal self) servers tx
          config.cacheService) tx)
      start txs ↔ ∀ tx ∈ txs, Harmless tx := by
  induction txs generalizing start with
  | nil => simp
  | cons tx txs ih =>
      have accepted :=
        accepted_of_succeeds config cereal self throws tx start root lawful succeed.1
      have ends := accounts tx (by simp)
      have step : Unharmed config (start config.cacheService)
          (handled config cereal (start config.cacheService) tx) tx ↔ Harmless tx :=
        ⟨unharmed_harmless config cereal _ tx accepted before ends.1 ends.2,
          harmless_unharmed config cereal _ tx accepted before⟩
      have cache := after_cache config cereal self throws tx start root lawful
      simp only [throughout_cons, List.forall_mem_cons]
      rw [cache, step]
      apply and_congr_right
      intro harmless
      apply ih
      · rw [cache]
        exact (step.mpr harmless).1
      · exact fun other member => accounts other (by simp [member])
      · exact succeed.2

end Run

theorem funded_nonNegative (config : Config) (account service : Bytes) :
    NonNegative config (funded account service) := by
  intro other _
  by_cases same : other = account
  · subst other
    rw [balanceOf, funded, holding, Finmap.lookup_insert]
    decide
  · rw [balanceOf, funded, holding, Finmap.lookup_insert_of_ne _ same, Finmap.lookup_empty]
    decide

theorem balances_unharmed_iff_payment :
    Throughout (serve fun _ => false)
      (handleTransaction rootServerConf CerealJson.cerealJson rootService)
      (fun servers tx => Unharmed rootServerConf (servers rootServerConf.cacheService)
        (after (serve fun _ => false)
          (handleTransaction rootServerConf CerealJson.cerealJson rootService) servers tx
          rootServerConf.cacheService) tx)
      (funded alice) [⟨ascii "t1", alice, bob, 4, 0⟩, ⟨ascii "t2", bob, alice, 5, 1⟩] ↔
    ∀ tx ∈ [(⟨ascii "t1", alice, bob, 4, 0⟩ : Transaction), ⟨ascii "t2", bob, alice, 5, 1⟩],
      Harmless tx :=
  balances_unharmed_iff rootServerConf CerealJson.cerealJson rootService (fun _ => false) rfl
    CerealJson.cerealJson_lawful (funded alice) _
    (funded_nonNegative rootServerConf alice rootServerConf.cacheService) (by decide +kernel)
    ⟨by decide +kernel, by decide +kernel, trivial⟩

/-- A transfer of minus five from an unknown account takes five from its
receiver. -/
theorem negative_payment_takes :
    NonNegative rootServerConf (funded bob rootServerConf.cacheService) ∧
    (alice ∉ controlKeys rootServerConf ∧ bob ∉ controlKeys rootServerConf) ∧
    Succeeds (fun _ => false) (funded bob)
      (handleTransaction rootServerConf CerealJson.cerealJson rootService
        ⟨ascii "t1", alice, bob, -5, 0⟩) ∧
    ¬ Unharmed rootServerConf (funded bob rootServerConf.cacheService)
      (after (serve fun _ => false)
        (handleTransaction rootServerConf CerealJson.cerealJson rootService) (funded bob)
        ⟨ascii "t1", alice, bob, -5, 0⟩ rootServerConf.cacheService)
      ⟨ascii "t1", alice, bob, -5, 0⟩ := by
  refine ⟨funded_nonNegative _ _ _, by decide +kernel, by decide +kernel, ?_⟩
  intro unharmed
  have kept := unharmed.2 bob (by decide) (by decide)
  revert kept
  decide +kernel

end FPayNode.BalanceSafety
