import AstroPassport.Lib.Binary64
import AstroPassport.Lib.Digits
import Mathlib.Data.List.Dedup
import Mathlib.Data.String.Basic

set_option autoImplicit false

/-! # Boundary facts

`TimezoneBoundaryResult` and its parts of `boundaries/contracts.py`, and the registered identity of
`boundaries/identity.py`. A value here is one of the model's class however it was made: each field
holds a value of its annotated type and nothing else is known of it; a field whose annotation is a
single literal has one value and is left out. `modelValidate` is `model_validate` of the value's own
dump.

So validity is a function on values and not a property that comes with the type, because the code
itself validates results that it has been given, and a value may have been constructed without. The
four outcomes are those of `coherent_outcome`, each with the reason and the candidates it may have.
The registered identity is the provenance of the accepted data set together with the list of its
zones, against which a fact is held before it is used (`validateRegisteredBoundaryFact`). -/

namespace AstroPassport

/-! ## Contracts -/

/-- `GeographicCoordinates`. -/
structure GeographicCoordinates where
  latitude : Binary64
  longitude : Binary64
  deriving DecidableEq

/-- `ge=low, le=high, allow_inf_nan=False`. -/
def Binary64.inRange (low high : ℚ) : Binary64 → Bool
  | .finite x => decide (low ≤ x.value ∧ x.value ≤ high)
  | .inf _ => false
  | .nan => false

/-- The bounds of the two fields. -/
def GeographicCoordinates.valid (c : GeographicCoordinates) : Bool :=
  c.latitude.inRange (-90) 90 && c.longitude.inRange (-180) 180

/-- `BoundaryProvenance`, less its literals. -/
structure BoundaryProvenance where
  manifestSha256 : String
  archiveSha256 : String
  geometrySha256 : String
  catalogSha256 : String
  attribution : String
  deriving DecidableEq

/-- The four digests and the length of the attribution. -/
def BoundaryProvenance.valid (p : BoundaryProvenance) : Bool :=
  isDigest p.manifestSha256 && isDigest p.archiveSha256 && isDigest p.geometrySha256 &&
    isDigest p.catalogSha256 && decide (1 ≤ p.attribution.length ∧ p.attribution.length ≤ 512)

/-- `status`. -/
inductive BoundaryStatus where
  | resolved
  | boundary
  | ambiguous
  | noMatch
  deriving DecidableEq, Repr

/-- `reason`. -/
inductive BoundaryReason where
  | polygonBoundary
  | coordinateSeamOrPole
  | multipleZoneInteriors
  | outsideDataset
  deriving DecidableEq, Repr

/-- `TimezoneBoundaryResult`, less the literal of its schema. -/
structure TimezoneBoundaryResult where
  coordinates : GeographicCoordinates
  provenance : BoundaryProvenance
  status : BoundaryStatus
  tzid : Option String
  reason : Option BoundaryReason
  candidateIds : List String
  deriving DecidableEq

/-- `tuple(sorted(set(ids)))`. -/
def sortedSet (ids : List String) : List String :=
  ids.dedup.mergeSort fun a b => decide (a ≤ b)

namespace TimezoneBoundaryResult

/-- The cases of `coherent_outcome`. -/
def validOutcome (b : TimezoneBoundaryResult) : Bool :=
  match b.status with
  | .resolved =>
    (match b.tzid with
      | some tzid => tzid != ""
      | none => false) && b.reason == none && b.candidateIds.isEmpty
  | .ambiguous =>
    b.tzid == none && b.reason == some .multipleZoneInteriors && decide (2 ≤ b.candidateIds.length)
  | .noMatch => b.tzid == none && b.reason == some .outsideDataset && b.candidateIds.isEmpty
  | .boundary =>
    b.tzid == none &&
      ((b.reason == some .polygonBoundary && decide (1 ≤ b.candidateIds.length)) ||
        (b.reason == some .coordinateSeamOrPole && b.candidateIds.isEmpty))

/-- `coherent_outcome`: the candidates are sorted and distinct, and the outcome is one of the four.
    -/
def coherentOutcome (b : TimezoneBoundaryResult) : Bool :=
  decide (b.candidateIds = sortedSet b.candidateIds) &&
    (b.candidateIds.all fun id => decide (1 ≤ id.length ∧ id.length ≤ 128)) && b.validOutcome

/-- The fields are valid, and `coherent_outcome` passes. -/
def valid (b : TimezoneBoundaryResult) : Bool :=
  b.coordinates.valid && b.provenance.valid &&
    (b.tzid.all fun tzid => decide (tzid.length ≤ 128)) && decide (b.candidateIds.length ≤ 419) &&
    b.coherentOutcome

end TimezoneBoundaryResult

/-! ## The registered identity -/

/-- `pinned_provenance`, less its literals. -/
def pinnedProvenance : BoundaryProvenance where
  manifestSha256 := "2721941b70ba791ab06052972bbe493d7c7758884dea7ba72f339fb939e106e9"
  archiveSha256 := "7d3f0c5a33b6acd891335c0ad5ba767736b6914cb1a1d68c71921c17ce358948"
  geometrySha256 := "40863a7e585e4c1f25a7dd9b0b204d591f4af45a180aa9ec44775fed8a8510bf"
  catalogSha256 := "2584551f8c9af23a19bc8b197bf46ad458d9fa8c78d4df056f0408c67fd315ff"
  attribution :=
    "Timezone Boundary Builder; OpenStreetMap contributors (https://www.openstreetmap.org/copyright)"

theorem pinnedProvenance_valid : pinnedProvenance.valid = true := by decide

/-- `registered_zone_ids`; the digest of the catalog text is the one the source compares it with. -/
def registeredZoneIds : List String :=
  [
    "Africa/Abidjan", "Africa/Accra", "Africa/Addis_Ababa", "Africa/Algiers", "Africa/Asmara",
    "Africa/Bamako", "Africa/Bangui", "Africa/Banjul", "Africa/Bissau", "Africa/Blantyre",
    "Africa/Brazzaville", "Africa/Bujumbura", "Africa/Cairo", "Africa/Casablanca", "Africa/Ceuta",
    "Africa/Conakry", "Africa/Dakar", "Africa/Dar_es_Salaam", "Africa/Djibouti", "Africa/Douala",
    "Africa/El_Aaiun", "Africa/Freetown", "Africa/Gaborone", "Africa/Harare",
    "Africa/Johannesburg", "Africa/Juba", "Africa/Kampala", "Africa/Khartoum", "Africa/Kigali",
    "Africa/Kinshasa", "Africa/Lagos", "Africa/Libreville", "Africa/Lome", "Africa/Luanda",
    "Africa/Lubumbashi", "Africa/Lusaka", "Africa/Malabo", "Africa/Maputo", "Africa/Maseru",
    "Africa/Mbabane", "Africa/Mogadishu", "Africa/Monrovia", "Africa/Nairobi", "Africa/Ndjamena",
    "Africa/Niamey", "Africa/Nouakchott", "Africa/Ouagadougou", "Africa/Porto-Novo",
    "Africa/Sao_Tome", "Africa/Tripoli", "Africa/Tunis", "Africa/Windhoek", "America/Adak",
    "America/Anchorage", "America/Anguilla", "America/Antigua", "America/Aruba",
    "America/Araguaina", "America/Argentina/Buenos_Aires", "America/Argentina/Catamarca",
    "America/Argentina/Cordoba", "America/Argentina/Jujuy", "America/Argentina/La_Rioja",
    "America/Argentina/Mendoza", "America/Argentina/Rio_Gallegos", "America/Argentina/Salta",
    "America/Argentina/San_Juan", "America/Argentina/San_Luis", "America/Argentina/Tucuman",
    "America/Argentina/Ushuaia", "America/Asuncion", "America/Atikokan", "America/Bahia",
    "America/Bahia_Banderas", "America/Barbados", "America/Belem", "America/Belize",
    "America/Blanc-Sablon", "America/Boa_Vista", "America/Bogota", "America/Boise",
    "America/Cambridge_Bay", "America/Campo_Grande", "America/Cancun", "America/Caracas",
    "America/Cayenne", "America/Cayman", "America/Chicago", "America/Chihuahua",
    "America/Ciudad_Juarez", "America/Costa_Rica", "America/Coyhaique", "America/Creston",
    "America/Cuiaba", "America/Curacao", "America/Danmarkshavn", "America/Dawson",
    "America/Dawson_Creek", "America/Denver", "America/Detroit", "America/Dominica",
    "America/Edmonton", "America/Eirunepe", "America/El_Salvador", "America/Fort_Nelson",
    "America/Fortaleza", "America/Glace_Bay", "America/Goose_Bay", "America/Grand_Turk",
    "America/Grenada", "America/Guadeloupe", "America/Guatemala", "America/Guayaquil",
    "America/Guyana", "America/Halifax", "America/Havana", "America/Hermosillo",
    "America/Indiana/Indianapolis", "America/Indiana/Knox", "America/Indiana/Marengo",
    "America/Indiana/Petersburg", "America/Indiana/Tell_City", "America/Indiana/Vevay",
    "America/Indiana/Vincennes", "America/Indiana/Winamac", "America/Inuvik", "America/Iqaluit",
    "America/Jamaica", "America/Juneau", "America/Kentucky/Louisville",
    "America/Kentucky/Monticello", "America/Kralendijk", "America/La_Paz", "America/Lima",
    "America/Los_Angeles", "America/Lower_Princes", "America/Maceio", "America/Managua",
    "America/Manaus", "America/Marigot", "America/Martinique", "America/Matamoros",
    "America/Mazatlan", "America/Miquelon", "America/Menominee", "America/Merida",
    "America/Metlakatla", "America/Mexico_City", "America/Moncton", "America/Monterrey",
    "America/Montevideo", "America/Montserrat", "America/Nassau", "America/New_York",
    "America/Nome", "America/Noronha", "America/North_Dakota/Beulah",
    "America/North_Dakota/Center", "America/North_Dakota/New_Salem", "America/Nuuk",
    "America/Ojinaga", "America/Panama", "America/Paramaribo", "America/Phoenix",
    "America/Port-au-Prince", "America/Port_of_Spain", "America/Porto_Velho",
    "America/Puerto_Rico", "America/Punta_Arenas", "America/Rankin_Inlet", "America/Recife",
    "America/Regina", "America/Resolute", "America/Rio_Branco", "America/Santarem",
    "America/Santiago", "America/Santo_Domingo", "America/Sao_Paulo", "America/Scoresbysund",
    "America/Sitka", "America/St_Barthelemy", "America/St_Johns", "America/St_Kitts",
    "America/St_Lucia", "America/St_Thomas", "America/St_Vincent", "America/Swift_Current",
    "America/Tegucigalpa", "America/Thule", "America/Tijuana", "America/Toronto",
    "America/Tortola", "America/Vancouver", "America/Whitehorse", "America/Winnipeg",
    "America/Yakutat", "Antarctica/Casey", "Antarctica/Davis", "Antarctica/DumontDUrville",
    "Antarctica/Macquarie", "Antarctica/Mawson", "Antarctica/McMurdo", "Antarctica/Palmer",
    "Antarctica/Rothera", "Antarctica/Syowa", "Antarctica/Troll", "Antarctica/Vostok",
    "Arctic/Longyearbyen", "Asia/Aden", "Asia/Almaty", "Asia/Amman", "Asia/Anadyr", "Asia/Aqtau",
    "Asia/Aqtobe", "Asia/Ashgabat", "Asia/Atyrau", "Asia/Baghdad", "Asia/Bahrain", "Asia/Baku",
    "Asia/Bangkok", "Asia/Barnaul", "Asia/Beirut", "Asia/Bishkek", "Asia/Brunei", "Asia/Chita",
    "Asia/Colombo", "Asia/Damascus", "Asia/Dhaka", "Asia/Dili", "Asia/Dubai", "Asia/Dushanbe",
    "Asia/Famagusta", "Asia/Gaza", "Asia/Hebron", "Asia/Ho_Chi_Minh", "Asia/Hong_Kong",
    "Asia/Hovd", "Asia/Irkutsk", "Asia/Jakarta", "Asia/Jayapura", "Asia/Jerusalem", "Asia/Kabul",
    "Asia/Kamchatka", "Asia/Karachi", "Asia/Kathmandu", "Asia/Khandyga", "Asia/Kolkata",
    "Asia/Krasnoyarsk", "Asia/Kuala_Lumpur", "Asia/Kuching", "Asia/Kuwait", "Asia/Macau",
    "Asia/Magadan", "Asia/Makassar", "Asia/Manila", "Asia/Muscat", "Asia/Nicosia",
    "Asia/Novokuznetsk", "Asia/Novosibirsk", "Asia/Omsk", "Asia/Oral", "Asia/Phnom_Penh",
    "Asia/Pontianak", "Asia/Pyongyang", "Asia/Qatar", "Asia/Qostanay", "Asia/Qyzylorda",
    "Asia/Riyadh", "Asia/Sakhalin", "Asia/Samarkand", "Asia/Seoul", "Asia/Shanghai",
    "Asia/Singapore", "Asia/Srednekolymsk", "Asia/Taipei", "Asia/Tashkent", "Asia/Tbilisi",
    "Asia/Tehran", "Asia/Thimphu", "Asia/Tokyo", "Asia/Tomsk", "Asia/Ulaanbaatar", "Asia/Urumqi",
    "Asia/Ust-Nera", "Asia/Vientiane", "Asia/Vladivostok", "Asia/Yakutsk", "Asia/Yangon",
    "Asia/Yekaterinburg", "Asia/Yerevan", "Atlantic/Azores", "Atlantic/Bermuda", "Atlantic/Canary",
    "Atlantic/Cape_Verde", "Atlantic/Faroe", "Atlantic/Madeira", "Atlantic/Reykjavik",
    "Atlantic/South_Georgia", "Atlantic/St_Helena", "Atlantic/Stanley", "Australia/Adelaide",
    "Australia/Brisbane", "Australia/Broken_Hill", "Australia/Darwin", "Australia/Eucla",
    "Australia/Hobart", "Australia/Lindeman", "Australia/Lord_Howe", "Australia/Melbourne",
    "Australia/Perth", "Australia/Sydney", "Etc/UTC", "Europe/Amsterdam", "Europe/Andorra",
    "Europe/Astrakhan", "Europe/Athens", "Europe/Belgrade", "Europe/Berlin", "Europe/Bratislava",
    "Europe/Brussels", "Europe/Bucharest", "Europe/Budapest", "Europe/Busingen", "Europe/Chisinau",
    "Europe/Copenhagen", "Europe/Dublin", "Europe/Gibraltar", "Europe/Guernsey", "Europe/Helsinki",
    "Europe/Isle_of_Man", "Europe/Istanbul", "Europe/Jersey", "Europe/Kaliningrad", "Europe/Kyiv",
    "Europe/Kirov", "Europe/Lisbon", "Europe/Ljubljana", "Europe/London", "Europe/Luxembourg",
    "Europe/Madrid", "Europe/Malta", "Europe/Mariehamn", "Europe/Minsk", "Europe/Monaco",
    "Europe/Moscow", "Europe/Oslo", "Europe/Paris", "Europe/Podgorica", "Europe/Prague",
    "Europe/Riga", "Europe/Rome", "Europe/Samara", "Europe/San_Marino", "Europe/Sarajevo",
    "Europe/Saratov", "Europe/Simferopol", "Europe/Skopje", "Europe/Sofia", "Europe/Stockholm",
    "Europe/Tallinn", "Europe/Tirane", "Europe/Ulyanovsk", "Europe/Vaduz", "Europe/Vatican",
    "Europe/Vienna", "Europe/Vilnius", "Europe/Volgograd", "Europe/Warsaw", "Europe/Zagreb",
    "Europe/Zurich", "Indian/Antananarivo", "Indian/Chagos", "Indian/Christmas", "Indian/Cocos",
    "Indian/Comoro", "Indian/Kerguelen", "Indian/Mahe", "Indian/Maldives", "Indian/Mauritius",
    "Indian/Mayotte", "Indian/Reunion", "Pacific/Apia", "Pacific/Auckland", "Pacific/Bougainville",
    "Pacific/Chatham", "Pacific/Chuuk", "Pacific/Easter", "Pacific/Efate", "Pacific/Fakaofo",
    "Pacific/Fiji", "Pacific/Funafuti", "Pacific/Galapagos", "Pacific/Gambier",
    "Pacific/Guadalcanal", "Pacific/Guam", "Pacific/Honolulu", "Pacific/Kanton",
    "Pacific/Kiritimati", "Pacific/Kosrae", "Pacific/Kwajalein", "Pacific/Majuro",
    "Pacific/Marquesas", "Pacific/Midway", "Pacific/Nauru", "Pacific/Niue", "Pacific/Norfolk",
    "Pacific/Noumea", "Pacific/Pago_Pago", "Pacific/Palau", "Pacific/Pitcairn", "Pacific/Pohnpei",
    "Pacific/Port_Moresby", "Pacific/Rarotonga", "Pacific/Saipan", "Pacific/Tahiti",
    "Pacific/Tarawa", "Pacific/Tongatapu", "Pacific/Wake", "Pacific/Wallis"
  ]

/-- The zone ids a boundary fact names. -/
def TimezoneBoundaryResult.namedIds (b : TimezoneBoundaryResult) : List String :=
  b.candidateIds ++ b.tzid.toList

/-- `validate_registered_boundary_fact`: the fact itself, or a `TimezoneBoundaryError`. -/
def validateRegisteredBoundaryFact (b : TimezoneBoundaryResult) : Option TimezoneBoundaryResult :=
  if b.valid && b.provenance == pinnedProvenance &&
      (b.namedIds.all fun name => decide (name ∈ registeredZoneIds)) then
    some b
  else none

theorem validateRegisteredBoundaryFact_eq_some {b c : TimezoneBoundaryResult} :
    validateRegisteredBoundaryFact b = some c ↔
      b = c ∧ b.valid = true ∧ b.provenance = pinnedProvenance ∧
        ∀ name ∈ b.namedIds, name ∈ registeredZoneIds := by
  unfold validateRegisteredBoundaryFact
  split
  · next h =>
      simp only [Bool.and_eq_true, beq_iff_eq, List.all_eq_true, decide_eq_true_eq] at h
      simp only [Option.some.injEq, iff_self_and]
      exact fun _ => ⟨h.1.1, h.1.2, h.2⟩
  · next h =>
      simp only [Bool.and_eq_true, beq_iff_eq, List.all_eq_true, decide_eq_true_eq] at h
      simp only [reduceCtorEq, false_iff]
      exact fun hall => h ⟨⟨hall.2.1, hall.2.2.1⟩, hall.2.2.2⟩

/-- A resolved fact that passes its own checks names a zone. -/
theorem TimezoneBoundaryResult.tzid_of_resolved {b : TimezoneBoundaryResult} (h : b.valid = true)
    (hstatus : b.status = .resolved) :
    ∃ tzid, b.tzid = some tzid ∧ 1 ≤ tzid.length ∧ tzid.length ≤ 128 := by
  simp only [valid, coherentOutcome, validOutcome, hstatus, Bool.and_eq_true] at h
  obtain ⟨⟨⟨-, hlength⟩, -⟩, -, ⟨htzid, -⟩, -⟩ := h
  split at htzid
  · next tzid hsome =>
      rw [hsome, Option.all_some, decide_eq_true_eq] at hlength
      refine ⟨tzid, hsome, ?_, hlength⟩
      rw [Nat.one_le_iff_ne_zero, Ne, String.length_eq_zero_iff]
      simpa using htzid
  · cases htzid

end AstroPassport
