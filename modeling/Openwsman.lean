import Openwsman.Enumeration.Credentials
import Openwsman.Dispatcher.MessageIds
import Openwsman.Dispatcher.Limits
import Openwsman.Dispatcher.Correlation
import Openwsman.Cim.Resource
import Openwsman.Cim.Keys
import Openwsman.Cim.Filtering
import Openwsman.Eventing.Handlers
import Openwsman.Eventing.Delivery
import Openwsman.Eventing.Agreement
import Openwsman.Eventing.Resolution
import Openwsman.Enumeration.Quota
import Openwsman.Client.Subscribe
import Openwsman.Serialize.DynArray
import Openwsman.Eventing.PoolList
import Openwsman.Eventing.Heartbeat
import Openwsman.Eventing.Indications
import Openwsman.Server.Authorization
import Openwsman.Cim.Resources
import Openwsman.Redirect.Faults
import Openwsman.Xml.DurationText
import Openwsman.Client.Timeout
import Openwsman.Client.Options
import Openwsman.Eventing.Instants
import Openwsman.Serialize.Integers
import Openwsman.Serialize.Positions
import Openwsman.Serialize.Skipping
import Openwsman.Client.Sharing
import Openwsman.Soap.EprString
import Openwsman.Soap.EprValues
import Openwsman.Soap.SelectorSet
import Openwsman.Xml.NodeText
import Openwsman.Xml.AddChild
