import PhobosClient.Wire.Encoder
import PhobosClient.Relay.Runs
import PhobosClient.Launch.Elevate
import PhobosClient.Routes.Matching
import PhobosClient.Routes.Teardown
import PhobosClient.Service.Names
import PhobosClient.Service.Rest
import PhobosClient.Store.Contents
import PhobosClient.Config.Mtu
import PhobosClient.Config.AllowedIps
import PhobosClient.Wire.Checked
import PhobosClient.Relay.Receivers
import PhobosClient.Config.Address
import PhobosClient.Config.Instance
import PhobosClient.Config.Package
import PhobosClient.Service.Display
import PhobosClient.Tunnel.Engine
import PhobosClient.Tunnel.Endpoints
import PhobosClient.Tunnel.Stop
import PhobosClient.Service.Stop
import PhobosClient.Relay.Stop
import PhobosClient.Window.Shows
import PhobosClient.Window.Stops
import PhobosClient.Window.Journal
import PhobosClient.Window.Connected
import PhobosClient.Service.Restores
import PhobosClient.Launch.CtrlC
import PhobosClient.Store.Order
import PhobosClient.Service.Stats
import PhobosClient.Launch.Main
import PhobosClient.Launch.Proxy
import PhobosClient.Config.Formats
import PhobosClient.Launch.Proxy
import PhobosClient.Config.Formats
