import AstroPassport.Canonical.Node
import AstroPassport.Canonical.Timestamp
import AstroPassport.Canonical.LahiriContent
import AstroPassport.Contracts.Containment
import AstroPassport.Security.QuotaRace
import AstroPassport.Api.Gating
import AstroPassport.Api.Slots
import AstroPassport.Science.Capacity
import AstroPassport.Science.Civil.ArchiveResolver
import AstroPassport.Science.LahiriExchange
import AstroPassport.Science.Natal
import AstroPassport.Science.Boundary.Outcome
import AstroPassport.Conformance.Pinned
import AstroPassport.Conformance.TypedEqual
import AstroPassport.Security.Credentials
import AstroPassport.Api.Routing
import AstroPassport.Science.Boundary.Collection
import AstroPassport.Science.Ephemeris.Worker
import AstroPassport.Compliance.Coverage
import AstroPassport.Compliance.Native
import AstroPassport.Compliance.Publication
import AstroPassport.Compliance.Elf
