import CocaineHttpProxy.Hyper
import CocaineHttpProxy.Protocol
import CocaineHttpProxy.Dispatch
import CocaineHttpProxy.Regex
import CocaineHttpProxy.Route
import CocaineHttpProxy.Retry
import CocaineHttpProxy.Session
import CocaineHttpProxy.Invoke
import CocaineHttpProxy.Middleware
