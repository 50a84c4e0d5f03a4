import GovernedRecords.Auth.KeyCache
import GovernedRecords.Proofs.Operation

/-!
# What the header of a token decides

The header of a token is read before the token is checked, so anyone may have written it.  Its id
decides which key is looked up, and how often the key set is fetched for it.  The rest of it
reaches the check in one place: the algorithm that the header names is the one that the token may
be signed with (`header_decides`).
-/

set_option autoImplicit false

namespace GovernedRecords.KeyCache

variable {ε : Type}

/-- A check looks up the key with the id of the header, and hands on the algorithm. -/
theorem checkBy_on (source : KeySource ε) (token issuer audience : Value) (header : Entries)
    (state : KeyCache × ε) :
    (checkBy source token (.object header) issuer audience).on state =
      (((key source (Entries.get header "kid")).on state).1.map fun key =>
          ⟨token, key, [algorithm header], issuer, audience⟩,
        ((key source (Entries.get header "kid")).on state).2) := by
  rw [checkBy, Operation.on_bind]
  cases (key source (Entries.get header "kid")).on state with
  | mk result after => cases result <;> rfl

/-- **Of two headers with the same id, only the algorithms make a difference.**  From the same
state, with the same issuer and audience, both tokens leave the same cache behind after the same
fetches; either neither has a key, for the same reason, or both are checked with the same key, the
same issuer and the same audience, each by the one algorithm that its own header names. -/
theorem header_decides (source : KeySource ε) (state : KeyCache × ε) (issuer audience : Value)
    {token other : Value} {header otherHeader : Entries}
    (sameId : Entries.get header "kid" = Entries.get otherHeader "kid") :
    ((checkBy source token (.object header) issuer audience).on state).2 =
        ((checkBy source other (.object otherHeader) issuer audience).on state).2 ∧
      ((∃ fault,
          ((checkBy source token (.object header) issuer audience).on state).1 = .error fault ∧
          ((checkBy source other (.object otherHeader) issuer audience).on state).1 =
            .error fault) ∨
        ∃ key,
          ((checkBy source token (.object header) issuer audience).on state).1 =
            .ok ⟨token, key, [algorithm header], issuer, audience⟩ ∧
          ((checkBy source other (.object otherHeader) issuer audience).on state).1 =
            .ok ⟨other, key, [algorithm otherHeader], issuer, audience⟩) := by
  rw [checkBy_on, checkBy_on, ← sameId]
  refine ⟨rfl, ?_⟩
  cases ((key source (Entries.get header "kid")).on state).1 with
  | error fault => exact .inl ⟨fault, rfl, rfl⟩
  | ok key => exact .inr ⟨key, rfl, rfl⟩

/-- An endpoint that publishes one key, while the clock stands still. -/
def onePublished : KeySource Unit where
  clock := pure (.integer 0)
  fetch := pure (.ofFields [("keys", .list [.ofFields [("kid", "a")]])])

/-- A header with an algorithm, and the id of the key that is published. -/
def headerNaming (algorithm : Value) : Entries := [("alg", algorithm), ("kid", "a")]

theorem kid_headerNaming (algorithm : Value) : Entries.get (headerNaming algorithm) "kid" = "a" :=
  rfl

/-- With this endpoint a token is checked with the published key, by the algorithm that its own
header names. -/
theorem checkBy_onePublished (token algorithm : Value) :
    ((checkBy onePublished token (.object (headerNaming algorithm)) "iss" .null).on
      (empty, ())).1 = .ok ⟨token, .ofFields [("kid", "a")], [algorithm], "iss", .null⟩ := by
  have published : ((key onePublished "a").on (empty, ())).1 =
      .ok (.ofFields [("kid", "a")]) := by with_unfolding_all rfl
  have named : KeyCache.algorithm (headerNaming algorithm) = algorithm := rfl
  rw [checkBy_on, kid_headerNaming, published, named]
  rfl

theorem header_decides_algorithm :
    Entries.get (headerNaming "HS256") "kid" = Entries.get (headerNaming "RS256") "kid" ∧
      ∃ key,
        ((checkBy onePublished "t" (.object (headerNaming "HS256")) "iss" .null).on
          (empty, ())).1 = .ok ⟨"t", key, ["HS256"], "iss", .null⟩ ∧
        ((checkBy onePublished "t" (.object (headerNaming "RS256")) "iss" .null).on
          (empty, ())).1 = .ok ⟨"t", key, ["RS256"], "iss", .null⟩ := by
  have sameId : Entries.get (headerNaming "HS256") "kid" =
      Entries.get (headerNaming "RS256") "kid" := by
    rw [kid_headerNaming, kid_headerNaming]
  refine ⟨sameId, ?_⟩
  obtain ⟨-, ⟨fault, failed, -⟩ | found⟩ :=
    @header_decides Unit onePublished (empty, ()) "iss" .null "t" "t" _ _ sameId
  · rw [checkBy_onePublished] at failed
    cases failed
  · exact found

/-- The algorithm by which a token is checked is not the same for all headers with one id. -/
theorem algorithm_not_fixed : ¬ ∀ (token : Value) (header other : Entries),
    Entries.get header "kid" = Entries.get other "kid" →
      ((checkBy onePublished token (.object header) "iss" .null).on (empty, ())).1.map
          TokenCheck.algorithms =
        ((checkBy onePublished token (.object other) "iss" .null).on (empty, ())).1.map
          TokenCheck.algorithms := by
  intro fixed
  have same := fixed "t" (headerNaming "HS256") (headerNaming "RS256")
    ((kid_headerNaming _).trans (kid_headerNaming _).symm)
  rw [checkBy_onePublished, checkBy_onePublished] at same
  simp only [Except.map, Except.ok.injEq, List.cons.injEq, Value.text.injEq, and_true] at same
  exact absurd same (by decide)

end GovernedRecords.KeyCache
