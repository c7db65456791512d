import Mathlib.Data.List.Sort
import WrapperGen.Proofs.EndpointNames
/-!
# The endpoints of an assembly

Discovery goes through the types and their methods twice, once for the endpoints and once for the
summary.

1. What makes a type a client and a method an endpoint is spelled out (`isClient_iff`,
   `isEndpoint_iff`).
2. The methods that are endpoints are listed with their places. A list in the order of places is
   determined by its members (`Offer.eq_of_mem_iff`), and the endpoints are made from this one
   (`endpoints_eq_map_offers`), so they are the only list that is right (`Lists.eq_endpoints`).
3. A filter takes from the list what is on a client that it lets through (`offers_eq_filter`).
4. The summary tells the same of each client (`summary_agrees`).
-/

namespace WrapperGen

/-! ## Conditions -/

/-- The type is a client, and the filter lets it through. -/
structure TypeDefinition.IsClientOf (d : TypeDefinition) (f : ClientFilter) : Prop where
  reference : d.kind = .reference
  exported : d.isExported = true
  concrete : d.isAbstract = false
  typeSuffix : ∀ ending, f.typeSuffix = some ending → ending.toList <:+ d.name.toList
  spaceSuffix : ∀ ending, f.spaceSuffix = some ending →
    ∃ s, d.space = some s ∧ ending.toList <:+ s.toList

/-- The method of a client is an endpoint. -/
structure Method.IsOffered (m : Method) : Prop where
  visible : m.isPublic = true
  onObjects : m.isStatic = false
  own : m.isDeclared = true
  ordinary : m.isSpecial = false
  verb : ∃ verb : Verb, verb.Begins m.name

theorem ClientFilter.endsWith_iff {text ending : String} :
    endsWith text ending = true ↔ ending.toList <:+ text.toList :=
  List.isSuffixOf_iff_suffix

theorem ClientFilter.passes_iff {f : ClientFilter} {name : String} {space : Option String} :
    f.passes name space = true ↔
      (∀ ending, f.typeSuffix = some ending → ending.toList <:+ name.toList) ∧
      ∀ ending, f.spaceSuffix = some ending →
        ∃ s, space = some s ∧ ending.toList <:+ s.toList := by
  unfold passes
  rw [Bool.and_eq_true]
  refine and_congr ?_ ?_
  · cases f.typeSuffix with
    | none => simp
    | some ending => simp [endsWith_iff]
  · cases f.spaceSuffix with
    | none => simp
    | some ending =>
      cases space with
      | none => simp
      | some s => simp [endsWith_iff]

theorem TypeDefinition.isClient_iff {d : TypeDefinition} {f : ClientFilter} :
    d.isClient f = true ↔ d.IsClientOf f := by
  unfold isClient
  rw [Bool.and_eq_true, Bool.and_eq_true, Bool.and_eq_true, beq_iff_eq, Bool.not_eq_true',
    ClientFilter.passes_iff]
  constructor
  · rintro ⟨⟨⟨hkind, hexported⟩, hconcrete⟩, htype, hspace⟩
    exact ⟨hkind, hexported, hconcrete, htype, hspace⟩
  · intro h
    exact ⟨⟨⟨h.reference, h.exported⟩, h.concrete⟩, h.typeSuffix, h.spaceSuffix⟩

instance (d : TypeDefinition) (f : ClientFilter) : Decidable (d.IsClientOf f) :=
  decidable_of_iff _ TypeDefinition.isClient_iff

theorem Method.isEndpoint_iff {m : Method} : m.isEndpoint = true ↔ m.IsOffered := by
  unfold isEndpoint
  rw [Bool.and_eq_true, Bool.and_eq_true, Bool.and_eq_true, Bool.and_eq_true, Bool.not_eq_true',
    Bool.not_eq_true', namesEndpoint_iff]
  simp only [Verb.ofMethod_eq_ok_iff]
  constructor
  · rintro ⟨⟨⟨⟨hpublic, hstatic⟩, hdeclared⟩, hspecial⟩, hverb⟩
    exact ⟨hpublic, hstatic, hdeclared, hspecial, hverb⟩
  · intro h
    exact ⟨⟨⟨⟨h.visible, h.onObjects⟩, h.own⟩, h.ordinary⟩, h.verb⟩

instance (m : Method) : Decidable m.IsOffered := decidable_of_iff _ Method.isEndpoint_iff

/-- Without a filter all clients are let through. -/
theorem TypeDefinition.isClientOf_iff {d : TypeDefinition} {f : ClientFilter} :
    d.IsClientOf f ↔ d.IsClientOf .all ∧ f.passes d.name d.space = true := by
  rw [ClientFilter.passes_iff]
  constructor
  · intro h
    exact ⟨⟨h.reference, h.exported, h.concrete, nofun, nofun⟩, h.typeSuffix, h.spaceSuffix⟩
  · rintro ⟨h, htype, hspace⟩
    exact ⟨h.reference, h.exported, h.concrete, htype, hspace⟩

/-! ## Places -/

theorem pairwise_snd_zipIdx {α : Type} (l : List α) :
    l.zipIdx.Pairwise fun d d' => d.2 < d'.2 := by
  rw [← List.pairwise_map (f := Prod.snd), List.zipIdx_map_snd]
  exact List.pairwise_lt_range'

theorem map_fst_filter_zipIdx {α : Type} (p : α → Bool) (l : List α) :
    (l.zipIdx.filter fun d => p d.1).map Prod.fst = l.filter p := by
  conv_rhs => rw [← List.zipIdx_map_fst 0 l, List.filter_map]
  rfl

/-- A method of a client, with the places of both, counted from zero. -/
structure Offer where
  type : TypeDefinition
  typePlace : Nat
  method : Method
  methodPlace : Nat

namespace Offer

/-- The assembly has the type and the method at these places. -/
def StandsIn (o : Offer) (a : Assembly) : Prop :=
  a.types[o.typePlace]? = some o.type ∧ o.type.methods[o.methodPlace]? = some o.method

/-- The type is declared before the other one, or it is the same and the method is. -/
def Before (o o' : Offer) : Prop :=
  o.typePlace < o'.typePlace ∨ o.typePlace = o'.typePlace ∧ o.methodPlace < o'.methodPlace

instance : Std.Asymm Before where
  asymm o o' h h' := by
    unfold Before at h h'
    omega

/-- A list in the order of places is determined by its members. -/
theorem eq_of_mem_iff {offers offers' : List Offer} (h : offers.Pairwise Before)
    (h' : offers'.Pairwise Before) (hmem : ∀ o, o ∈ offers ↔ o ∈ offers') : offers = offers' :=
  h.eq_of_mem_iff h' hmem

end Offer

/-- The endpoint has the name, the return type and the parameters of the method, and each parameter
is numbered by its place. -/
structure Endpoint.IsOf (e : Endpoint) (d : TypeDefinition) (m : Method) : Prop where
  declaringType : e.declaringType = d.name
  method : e.method = m.name
  returnType : e.returnType = m.returnType
  parameters : ∀ k : Nat, e.parameters[k]? = m.parameters[k]?.map fun p => ⟨p.name, p.type, k⟩

theorem Endpoint.isOf_iff {e : Endpoint} {d : TypeDefinition} {m : Method} :
    e.IsOf d m ↔ e = d.endpoint m := by
  have hplaces (k : Nat) : (d.endpoint m).parameters[k]? =
      m.parameters[k]?.map fun p => ⟨p.name, p.type, k⟩ := by
    unfold TypeDefinition.endpoint ofParameters
    rw [List.getElem?_mapIdx, List.getElem?_map, Option.map_map]
    rfl
  constructor
  · rintro ⟨htype, hmethod, hreturn, hparameters⟩
    obtain ⟨declaringType, method, returnType, parameters⟩ := e
    have heq : parameters = (d.endpoint m).parameters :=
      List.ext_getElem? fun k => (hparameters k).trans (hplaces k).symm
    cases htype
    cases hmethod
    cases hreturn
    cases heq
    rfl
  · rintro rfl
    exact ⟨rfl, rfl, rfl, hplaces⟩

/-! ## The list of endpoints -/

namespace Assembly

variable {a : Assembly} {f : ClientFilter}

/-- The endpoints are those of the methods that are offered, in the order of declaration. -/
structure Lists (a : Assembly) (f : ClientFilter) (offers : List Offer) (es : List Endpoint) :
    Prop where
  ordered : offers.Pairwise Offer.Before
  complete : ∀ o, o ∈ offers ↔ o.StandsIn a ∧ o.type.IsClientOf f ∧ o.method.IsOffered
  made : List.Forall₂ (fun o e => e.IsOf o.type o.method) offers es

/-- What the methods of clients offer, with places. -/
def offers (a : Assembly) (f : ClientFilter) : List Offer :=
  (a.types.zipIdx.filter fun d => d.1.isClient f).flatMap fun d =>
    (d.1.methods.zipIdx.filter fun m => m.1.isEndpoint).map fun m => ⟨d.1, d.2, m.1, m.2⟩

theorem mem_offers {o : Offer} :
    o ∈ a.offers f ↔ o.StandsIn a ∧ o.type.IsClientOf f ∧ o.method.IsOffered := by
  unfold offers Offer.StandsIn
  rw [List.mem_flatMap, ← TypeDefinition.isClient_iff, ← Method.isEndpoint_iff]
  constructor
  · rintro ⟨⟨d, i⟩, hd, ho⟩
    obtain ⟨⟨m, j⟩, hm, rfl⟩ := List.mem_map.1 ho
    obtain ⟨hd, hclient⟩ := List.mem_filter.1 hd
    obtain ⟨hm, hendpoint⟩ := List.mem_filter.1 hm
    exact ⟨⟨List.mem_zipIdx_iff_getElem?.1 hd, List.mem_zipIdx_iff_getElem?.1 hm⟩, hclient,
      hendpoint⟩
  · rintro ⟨⟨hd, hm⟩, hclient, hendpoint⟩
    exact ⟨(o.type, o.typePlace),
      List.mem_filter.2 ⟨List.mem_zipIdx_iff_getElem?.2 hd, hclient⟩,
      List.mem_map.2 ⟨(o.method, o.methodPlace),
        List.mem_filter.2 ⟨List.mem_zipIdx_iff_getElem?.2 hm, hendpoint⟩, rfl⟩⟩

theorem pairwise_offers (a : Assembly) (f : ClientFilter) :
    (a.offers f).Pairwise Offer.Before := by
  unfold offers
  rw [List.pairwise_flatMap]
  constructor
  · -- on one type
    intro d _
    rw [List.pairwise_map]
    exact ((pairwise_snd_zipIdx d.1.methods).filter _).imp fun h => .inr ⟨rfl, h⟩
  · -- on different ones
    refine ((pairwise_snd_zipIdx a.types).filter _).imp fun h o ho o' ho' => ?_
    obtain ⟨_, -, rfl⟩ := List.mem_map.1 ho
    obtain ⟨_, -, rfl⟩ := List.mem_map.1 ho'
    exact .inl h

/-- The endpoints are made from what is offered. -/
theorem endpoints_eq_map_offers (a : Assembly) (f : ClientFilter) :
    a.endpoints f = (a.offers f).map fun o => o.type.endpoint o.method := by
  unfold endpoints offers clients
  rw [List.map_flatMap, ← map_fst_filter_zipIdx, List.flatMap_map]
  refine List.flatMap_congr fun d _ => ?_
  rw [TypeDefinition.endpointMethods, ← map_fst_filter_zipIdx, List.map_map, List.map_map]
  rfl

theorem lists_endpoints (a : Assembly) (f : ClientFilter) :
    a.Lists f (a.offers f) (a.endpoints f) where
  ordered := pairwise_offers a f
  complete _ := mem_offers
  made := by
    rw [endpoints_eq_map_offers, List.forall₂_map_right_iff, List.forall₂_same]
    exact fun o _ => Endpoint.isOf_iff.2 rfl

theorem Lists.offers_eq {offers offers' : List Offer} {es es' : List Endpoint}
    (h : a.Lists f offers es) (h' : a.Lists f offers' es') : offers = offers' :=
  Offer.eq_of_mem_iff h.ordered h'.ordered fun o => (h.complete o).trans (h'.complete o).symm

/-- No other list is right. -/
theorem Lists.eq_endpoints {offers : List Offer} {es : List Endpoint} (h : a.Lists f offers es) :
    es = a.endpoints f := by
  have hmade := h.made
  rw [h.offers_eq (lists_endpoints a f)] at hmade
  have hmap : List.Forall₂ (· = ·) ((a.offers f).map fun o => o.type.endpoint o.method) es := by
    rw [List.forall₂_map_left_iff]
    exact hmade.imp fun o e hof => (Endpoint.isOf_iff.1 hof).symm
  rw [endpoints_eq_map_offers]
  exact (List.forall₂_eq_eq_eq ▸ hmap).symm

/-! ## Filters -/

theorem offers_eq_filter (a : Assembly) (f : ClientFilter) :
    a.offers f = (a.offers .all).filter fun o => f.passes o.type.name o.type.space := by
  refine Offer.eq_of_mem_iff (pairwise_offers a f) ((pairwise_offers a .all).filter _) fun o => ?_
  rw [List.mem_filter, mem_offers, mem_offers, TypeDefinition.isClientOf_iff]
  constructor
  · rintro ⟨hstands, ⟨hclient, hpasses⟩, hoffered⟩
    exact ⟨⟨hstands, hclient, hoffered⟩, hpasses⟩
  · rintro ⟨⟨hstands, hclient, hoffered⟩, hpasses⟩
    exact ⟨hstands, ⟨hclient, hpasses⟩, hoffered⟩

/-- A filter takes the endpoints on the clients that it lets through. -/
theorem endpoints_eq_filter (a : Assembly) (f : ClientFilter) :
    a.endpoints f = (((a.offers .all).zip (a.endpoints .all)).filter fun d =>
      f.passes d.1.type.name d.1.type.space).map Prod.snd := by
  rw [endpoints_eq_map_offers, offers_eq_filter, endpoints_eq_map_offers,
    ← List.map_prod_left_eq_zip, List.filter_map, List.map_map]
  rfl

/-! ## The summary -/

theorem endpointCount_summary (a : Assembly) (f : ClientFilter) :
    (a.summary f).endpointCount = (a.endpoints f).length := by
  unfold AssemblySummary.endpointCount summary endpoints
  rw [List.flatMap_map, List.length_flatMap, List.length_flatMap]
  congr 1
  apply List.map_congr_left
  intro d _
  simp only [ClientSummary.ofDefinition, List.length_map]

/-- The summary pairs names as the endpoints do. -/
theorem flatMap_summary {γ : Type} (a : Assembly) (f : ClientFilter) (g : String → String → γ) :
    ((a.summary f).clients.flatMap fun c => c.endpoints.map (g c.name)) =
      (a.endpoints f).map fun e => g e.declaringType e.method := by
  unfold summary endpoints
  rw [List.flatMap_map, List.map_flatMap]
  refine List.flatMap_congr fun d _ => ?_
  rw [ClientSummary.ofDefinition, List.map_map, List.map_map]
  rfl

end Assembly

/-- What is told of a client: the names of its endpoints, and how many other methods it has. -/
structure ClientSummary.Describes (c : ClientSummary) (d : TypeDefinition) : Prop where
  name : c.name = d.name
  space : c.space = d.space
  endpoints : c.endpoints = (d.methods.filter fun m => m.IsOffered).map (·.name)
  total : c.endpoints.length + c.skipped = d.methods.length

theorem ClientSummary.describes_ofDefinition (d : TypeDefinition) :
    (ofDefinition d).Describes d where
  name := rfl
  space := rfl
  endpoints := by
    refine congrArg (List.map _) (List.filter_congr fun m _ => ?_)
    rw [Bool.eq_iff_iff, Method.isEndpoint_iff, decide_eq_true_iff]
  total := by
    have hle : d.endpointMethods.length ≤ d.methods.length := List.length_filter_le _ _
    simp only [ofDefinition, List.length_map]
    omega

namespace Assembly

/-- The summary and the list of endpoints tell the same. -/
structure SummaryAgrees (a : Assembly) (f : ClientFilter) : Prop where
  clients : List.Forall₂ ClientSummary.Describes (a.summary f).clients
    (a.types.filter fun d => d.IsClientOf f)
  pairs : ((a.summary f).clients.flatMap fun c => c.endpoints.map fun method => (c.name, method)) =
    (a.endpoints f).map fun e => (e.declaringType, e.method)
  labels : ((a.summary f).clients.flatMap fun c =>
    c.endpoints.map fun method => c.name ++ "." ++ method) =
      (a.endpoints f).map (·.qualifiedName)
  count : (a.summary f).endpointCount = (a.endpoints f).length

theorem summary_agrees (a : Assembly) (f : ClientFilter) : a.SummaryAgrees f where
  clients := by
    have hclients : a.clients f = a.types.filter fun d => d.IsClientOf f := by
      refine List.filter_congr fun d _ => ?_
      rw [Bool.eq_iff_iff, TypeDefinition.isClient_iff, decide_eq_true_iff]
    rw [← hclients, summary, List.forall₂_map_left_iff, List.forall₂_same]
    exact fun d _ => ClientSummary.describes_ofDefinition d
  pairs := flatMap_summary a f Prod.mk
  labels := flatMap_summary a f fun name method => name ++ "." ++ method
  count := endpointCount_summary a f

/-- **Discovery is exact.** The endpoints are the methods that are offered, in the order in which
types and their methods are declared: this list is right and no other is. The summary goes through
the same names and counts the other methods. A filter takes from the endpoints of all clients,
without moving them, those on the clients that it lets through. -/
theorem discovery_is_exact (a : Assembly) (f : ClientFilter) :
    (∀ es, (∃ offers, a.Lists f offers es) ↔ es = a.endpoints f) ∧
    a.SummaryAgrees f ∧
    (a.endpoints f).Sublist (a.endpoints .all) ∧
    ∃ offers, a.Lists .all offers (a.endpoints .all) ∧
      a.endpoints f = ((offers.zip (a.endpoints .all)).filter fun d =>
        f.passes d.1.type.name d.1.type.space).map Prod.snd := by
  refine ⟨fun es => ⟨?_, ?_⟩, summary_agrees a f, ?_, _, lists_endpoints a .all,
    endpoints_eq_filter a f⟩
  · rintro ⟨offers, h⟩
    exact h.eq_endpoints
  · rintro rfl
    exact ⟨_, lists_endpoints a f⟩
  · rw [endpoints_eq_map_offers a f, offers_eq_filter, endpoints_eq_map_offers a .all]
    exact List.filter_sublist.map _

end Assembly

end WrapperGen
