import Moons.Pl.Entry
import Moons.Pl.Reentry
import Moons.Pl.Query
import Moons.Pl.Arith.Pow
import Moons.Pl.Template
import Moons.Hpl.ReadableStream
import Moons.Vhost.ServicePool
import Moons.Vhost.ServiceHandler
import Moons.Http.Header
import Moons.Server.ListenerConfig
import Moons.Pl.Pair
import Moons.Http.Application
